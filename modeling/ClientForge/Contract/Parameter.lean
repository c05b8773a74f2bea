/-
# ClientForge.Contract.Parameter -- parameters with a type

A parameter declares its schema directly or under a media type; the first media type that
has a schema counts.  Where the schema stands makes no difference for the rest:

* a parameter may be left out if it is not required, or if it or its schema has a default,
  because the server then fills the value in (`isOptional`).
-/
import ClientForge.Config.Override
import ClientForge.Operation
import ClientForge.Types.Schema

namespace ClientForge

set_option autoImplicit false

/-- Where in a request a parameter is sent. -/
inductive Location where
  | path
  | query
  | header
  | cookie
  deriving DecidableEq

namespace Location

def all : List Location := [.path, .query, .header, .cookie]

def name : Location → String
  | .path => "path"
  | .query => "query"
  | .header => "header"
  | .cookie => "cookie"

def ofName? (name : String) : Option Location := all.find? fun l => l.name = name

end Location

/-- Where the schema of a parameter stands. -/
inductive SchemaSource where
  | direct (schema : Value)
  | content (mediaType : Scalar) (schema : Value)

namespace SchemaSource

def schema : SchemaSource → Value
  | .direct schema => schema
  | .content _ schema => schema

def mediaType? : SchemaSource → Option Scalar
  | .direct _ => none
  | .content mediaType _ => some mediaType

end SchemaSource

/-- A parameter with its type. -/
structure Parameter where
  name : Value
  type : ResolvedType
  optional : Bool
  description : Option Value

namespace RawParameter

/-- The first media type that has a schema. -/
def contentSource? : List MediaType → Option SchemaSource
  | [] => none
  | media :: rest =>
    match media.schema with
    | some schema => some (.content media.contentType schema)
    | none => contentSource? rest

/-- Where the schema of a parameter stands. -/
def source (p : RawParameter) : Attempt SchemaSource :=
  match p.schema with
  | some schema => .ok (.direct schema)
  | none =>
    match contentSource? p.content with
    | some found => .ok found
    | none => reject (.parameterWithoutSchema p.name.shown p.location.shown)

/-- Callers may leave the parameter out. -/
def isOptional (p : RawParameter) (schema : Value) : Bool :=
  p.default.isSome || !p.required || Schema.hasDefault schema

/-- The parameter with its type. -/
def normalize (useDates : Bool) (p : RawParameter) : Attempt Parameter := do
  let source ← p.source
  let type ← Schema.resolve useDates source.schema false
  return ⟨p.name, type, p.isOptional source.schema, p.description⟩

end RawParameter

end ClientForge
