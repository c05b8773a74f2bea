/-
# ClientForge.Operation -- the operations of a document

An operation is one verb of one path.  The parameters of a path belong to all its
operations; an operation's own parameter takes the place of one with the same name and
location and keeps its position (`mergeParameters`).  A parameter that lacks a name or a
location stays where it is, so that it can be reported later.

Loosely written parts stay as they are written: a name may be any value, a path or a media
type any key.  A document whose parts are not maps and lists where they have to be is
refused as a whole.
-/
import ClientForge.Data.Display
import ClientForge.Failure

namespace ClientForge

set_option autoImplicit false

/-- The methods of HTTP that an operation may have. -/
inductive Verb where
  | get
  | put
  | post
  | delete
  | options
  | head
  | patch
  | trace
  deriving DecidableEq

namespace Verb

/-- The order in which the operations of a path are taken. -/
def all : List Verb := [.get, .put, .post, .delete, .options, .head, .patch, .trace]

theorem mem_all (verb : Verb) : verb ∈ all := by cases verb <;> decide

def name : Verb → String
  | .get => "get"
  | .put => "put"
  | .post => "post"
  | .delete => "delete"
  | .options => "options"
  | .head => "head"
  | .patch => "patch"
  | .trace => "trace"

/-- The name as a route shows it. -/
def upperName (verb : Verb) : String := verb.name.map Char.toUpper

def ofName? (name : String) : Option Verb := all.find? fun verb => verb.name = name

@[simp] theorem ofName?_name (verb : Verb) : ofName? verb.name = some verb := by
  cases verb <;> decide

end Verb

/-- A schema under a media type. -/
structure MediaType where
  contentType : Scalar
  schema : Option Value

/-- A parameter as it is declared. -/
structure RawParameter where
  name : Value
  location : Value
  required : Bool
  schema : Option Value
  content : List MediaType
  default : Option Value := none
  description : Option Value := none

structure RequestBody where
  required : Bool
  content : List MediaType

structure Response where
  status : String
  description : Option Value
  content : List MediaType

/-- One verb of one path. -/
structure Operation where
  verb : Verb
  path : Scalar
  id : Option Value
  parameters : List RawParameter
  requestBody : Option RequestBody
  responses : List Response
  extensions : Entries

namespace Operation

/-- How the keys of extensions begin. -/
def extensionStart : String := "x-hookify-"

/-- The route of an operation, as messages show it. -/
def route (op : Operation) : String := op.verb.upperName ++ " " ++ op.path.shown

end Operation

/-- What a document describes: named schemas and operations. -/
structure Api where
  schemas : List (Scalar × Value)
  operations : List Operation

namespace Api

/-- The entries of a value that has to be a map. -/
def asMap : Value → Attempt Entries
  | .map entries => .ok entries
  | _ => illShaped

/-- The entries under a key that may be missing. -/
def mapAt (key : String) (entries : Entries) : Attempt Entries :=
  match Entries.get? key entries with
  | none => .ok []
  | some v => asMap v

/-- The value under a key, null counting as missing. -/
def valueAt (key : String) (entries : Entries) : Option Value :=
  (Entries.get? key entries).bind Value.present?

/-- The media types of a `content` map. -/
def mediaTypes (entries : Entries) : Attempt (List MediaType) := do
  let content ← mapAt "content" entries
  content.mapM fun (contentType, v) => do
    let media ← asMap v
    return ⟨contentType, valueAt "schema" media⟩

/-- What a parameter is known by: its name and its location, if it has both. -/
def parameterKey (entries : Entries) : Attempt (Option (Scalar × Scalar)) :=
  let name := (Entries.get? "name" entries).getD .null
  let location := (Entries.get? "in" entries).getD .null
  if name.truthy && location.truthy then
    match name.scalar?, location.scalar? with
    | some name, some location => .ok (some (name, location))
    | _, _ => illShaped
  else .ok none

/-- Two parameters are known by the same name and location. -/
def sameParameter : Option (Scalar × Scalar) → Option (Scalar × Scalar) → Bool
  | some a, some b => a.1.same b.1 && a.2.same b.2
  | _, _ => false

/-- Put a parameter where one with its key stands, or at the end. -/
def putParameter (key : Option (Scalar × Scalar)) (entries : Entries) :
    List (Option (Scalar × Scalar) × Entries) → List (Option (Scalar × Scalar) × Entries)
  | [] => [(key, entries)]
  | (k, old) :: rest =>
    if sameParameter k key then (k, entries) :: rest
    else (k, old) :: putParameter key entries rest

/-- The items of two lists, one behind the other. -/
def appendLists (common specific : Value) : Attempt (List Value) :=
  match common, specific with
  | .list a, .list b => .ok (a ++ b)
  | .atom (.str ""), .atom (.str "") => .ok []
  | _, _ => illShaped

def parameterOf (entries : Entries) : Attempt RawParameter := do
  return {
    name := (Entries.get? "name" entries).getD (.str "")
    location := (Entries.get? "in" entries).getD (.str "")
    required := Entries.given "required" entries
    schema := valueAt "schema" entries
    content := ← mediaTypes entries
    default := valueAt "default" entries
    description := valueAt "description" entries }

/-- The parameters of an operation: those of its path and its own. -/
def mergeParameters (common specific : Value) : Attempt (List RawParameter) := do
  let declared ← appendLists common specific
  let keyed ← declared.mapM fun v => do
    let entries ← asMap v
    return (← parameterKey entries, entries)
  let merged := keyed.foldl (fun done (key, entries) => putParameter key entries done) []
  merged.mapM fun (_, entries) => parameterOf entries

def requestBodyOf (entries : Entries) : Attempt (Option RequestBody) :=
  match Entries.get? "requestBody" entries with
  | none => .ok none
  | some v =>
    if v.truthy then do
      let body ← asMap v
      return some ⟨Entries.given "required" body, ← mediaTypes body⟩
    else .ok none

def responsesOf (entries : Entries) : Attempt (List Response) := do
  let responses ← mapAt "responses" entries
  responses.mapM fun (status, v) => do
    let response ← asMap v
    return ⟨status.shown, valueAt "description" response, ← mediaTypes response⟩

/-- The entries whose keys mark them as extensions. -/
def extensionsOf (entries : Entries) : Attempt Entries :=
  if entries.all fun entry => entry.1 matches .str _ then
    .ok (entries.filter fun
      | (.str key, _) => Operation.extensionStart.toList.isPrefixOf key.toList
      | _ => false)
  else illShaped

/-- The operation under a verb of a path. -/
def operationOf (path : Scalar) (common : Value) (verb : Verb) (v : Value) :
    Attempt Operation := do
  let entries ← asMap v
  return {
    verb, path
    id := valueAt "operationId" entries
    parameters := ← mergeParameters common ((Entries.get? "parameters" entries).getD (.list []))
    requestBody := ← requestBodyOf entries
    responses := ← responsesOf entries
    extensions := ← extensionsOf entries }

/-- The operations of a path, in the order of `Verb.all`. -/
def operationsOf (path : Scalar) (item : Value) : Attempt (List Operation) := do
  let entries ← asMap item
  let common := (Entries.get? "parameters" entries).getD (.list [])
  let operations ← Verb.all.mapM fun verb =>
    match Entries.get? verb.name entries with
    | some v => if v.truthy then (operationOf path common verb v).map some else .ok none
    | none => .ok none
  return operations.filterMap id

/-- What a document describes. -/
def ofDocument (document : Value) : Attempt Api := do
  let entries ← asMap document
  let schemas ← mapAt "schemas" (← mapAt "components" entries)
  let paths ← mapAt "paths" entries
  let operations ← paths.mapM fun (path, item) => operationsOf path item
  return ⟨schemas, operations.flatten⟩

end Api

end ClientForge
