/-
# ClientForge.Models -- the models module

The models module declares a type for every component schema, in document order, and behind
them the types that the contracts add.  A name is declared once: what comes later under the
same name is recorded and passed over.

A schema of an object with properties becomes an interface, and so does an `allOf` of plain
objects, whose properties are put together: a property that several members declare stands
where the first one declares it, and has the type that the last one gives it.  Every other
schema becomes an alias of the type that it describes.
-/
import ClientForge.Contract.Basic

namespace ClientForge

set_option autoImplicit false

/-- A declaration of the models module. -/
inductive Model where
  | interface (name : String) (members : List (MemberKey × TypeExpr))
  | alias (name : String) (type : TypeExpr)
  | declared (d : Declaration)

namespace Model

def name : Model → String
  | .interface name _ => name
  | .alias name _ => name
  | .declared d => d.name

/-- The lines of an interface. -/
def interfaceLines (name : String) (members : List (MemberKey × TypeExpr)) : List String :=
  ("export interface " ++ name ++ " \x7b") ::
    members.map (fun (key, type) => "  " ++ key.text ++ ": " ++ type.render ++ ";") ++ ["\x7d"]

def render : Model → String
  | .interface name members => String.intercalate "\n" (interfaceLines name members)
  | .alias name type => "export type " ++ name ++ " = " ++ type.render ++ ";"
  | .declared d => d.render

/-- The properties of a member of `allOf` that is a plain object, and the names that it
requires. -/
def plainMember? : Value → Option (Entries × List Value)
  | .map entries =>
    let isObject :=
      match Entries.get? "type" entries with
      | none => true
      | some (.atom .null) => true
      | some (.atom (.str name)) => name == "object"
      | some _ => false
    if Entries.has "$ref" entries || Entries.has schemaNameKey entries || !isObject then none
    else
      match Entries.get? "properties" entries, Entries.get? "required" entries with
      | some (.map properties), some (.list required) => some (properties, required)
      | some (.map properties), _ => some (properties, [])
      | _, _ => none
  | .atom _ => none
  | .list _ => none

/-- The members of an `allOf` as one object schema, if all of them are plain objects and any
of them has a property. -/
def merged? (members : List Value) : Option Entries := do
  let parts ← members.mapM plainMember?
  let properties := parts.foldl (fun all part => Entries.putAll all part.1) []
  let required := parts.flatMap Prod.snd
  if properties.isEmpty then none
  else some [(.str "type", .str "object"), (.str "properties", .map properties),
    (.str "required", .list required)]

/-- A property of an interface. -/
def member (useDates : Bool) (required : List String) (key : Scalar) (schema : Value) :
    Attempt (MemberKey × TypeExpr) := do
  let type ← Schema.read useDates false schema
  let name ← Contract.textOf (.atom key)
  return (.property name (!required.contains name), type)

/-- The interface of an object schema. -/
def interfaceOf (useDates : Bool) (name : String) (schema : Entries) : Attempt Model := do
  let required ← Schema.requiredNames (Entries.get? "required" schema)
  let properties ← Api.mapAt "properties" schema
  let members ← properties.mapM fun (key, schema) => member useDates required key schema
  match Entries.get? "additionalProperties" schema with
  | some (.map (entry :: rest)) =>
    let others ← Schema.read useDates false (.map (entry :: rest))
    return .interface name (members ++ [(.index, others)])
  | _ => return .interface name members

/-- The members of an `allOf` that can be put together. -/
def mergedAllOf? (schema : Entries) : Option Entries :=
  match Entries.get? "allOf" schema with
  | some (.list members) => merged? members
  | _ => none

/-- An object with properties that cannot be null. -/
def isPlainObject (schema : Entries) : Bool :=
  (match Entries.get? "type" schema with
    | some (.atom (.str name)) => name == "object"
    | _ => false) &&
  Entries.given "properties" schema && !Entries.given "nullable" schema

/-- The declaration of a component schema. -/
def ofSchema (useDates : Bool) (name : String) (schema : Value) : Attempt Model := do
  let entries ← Api.asMap schema
  match mergedAllOf? entries with
  | some merged => interfaceOf useDates name merged
  | none =>
    if isPlainObject entries then interfaceOf useDates name entries
    else return .alias name (← Schema.read useDates true schema)

end Model

/-- The models module. -/
structure ModelsFile where
  models : List Model

namespace ModelsFile

def names (f : ModelsFile) : List String := f.models.map Model.name

def declares (f : ModelsFile) (name : String) : Bool := f.names.contains name

/-- The text of the module. -/
def render (f : ModelsFile) : String :=
  String.intercalate "\n\n" (f.models.map Model.render) ++ "\n"

def add (f : ModelsFile) (model : Model) : ModelsFile := ⟨f.models ++ [model]⟩

/-- Declare the type of a component schema. -/
def addSchema (useDates : Bool) (f : ModelsFile) (schema : Scalar × Value) :
    Traced ModelsFile := do
  let schemaName ← Contract.textOf (.atom schema.1)
  let name := Naming.pascal schemaName
  if f.declares name then
    Traced.record .warning .models
      ("Schema '" ++ schemaName ++ "' collides with an earlier model named " ++ name ++
        ", skipping")
    return f
  else return f.add (← Model.ofSchema useDates name schema.2)

/-- Declare a type that the contract of an operation adds. -/
def addDeclaration (operation : String) (f : ModelsFile) (d : Declaration) :
    Traced ModelsFile := do
  if f.declares d.name then
    Traced.record .warning .models
      (operation ++ ": type " ++ d.name ++ " is already declared, skipping")
    return f
  else return f.add (.declared d)

/-- Declare the types that a contract adds. -/
def addContract (f : ModelsFile) (c : Contract) : Traced ModelsFile :=
  c.declarations.foldlM (addDeclaration c.name) f

/-- The models module for component schemas and contracts. -/
def build (useDates : Bool) (schemas : List (Scalar × Value)) (contracts : List Contract) :
    Traced ModelsFile := do
  let file ← schemas.foldlM (addSchema useDates) ⟨[]⟩
  contracts.foldlM addContract file

end ModelsFile

end ClientForge
