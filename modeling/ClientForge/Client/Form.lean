/-
# ClientForge.Client.Form -- form bodies

A body that is sent as a form is built property by property: one statement per declared
property, in order.  The items of an array are appended one by one.  A property that is not
required is appended only if it is there.  Without declared properties every entry of the
body is appended.
-/
import ClientForge.Contract.Basic

namespace ClientForge

set_option autoImplicit false

/-- The two kinds of forms. -/
inductive FormKind where
  | formData
  | urlEncoded
  deriving DecidableEq

/-- The variable that holds the form. -/
def FormKind.name : FormKind → String
  | .formData => "formData"
  | .urlEncoded => "formUrlEncoded"

def FormKind.constructor : FormKind → String
  | .formData => "FormData"
  | .urlEncoded => "URLSearchParams"

/-- How a value becomes the text of a form field. -/
inductive Conversion where
  | none
  | toText
  | json
  | textOrJson
  deriving DecidableEq

/-- The converted value of an expression. -/
def Conversion.apply (expression : String) : Conversion → String
  | .none => expression
  | .toText => expression ++ ".toString()"
  | .json => "JSON.stringify(" ++ expression ++ ")"
  | .textOrJson =>
    "typeof " ++ expression ++ " === 'string' ? " ++ expression ++ " : JSON.stringify(" ++
      expression ++ ")"

/-- A property of a body as a form field. -/
structure FormField where
  name : String
  required : Bool
  perItem : Bool
  conversion : Conversion
  deriving DecidableEq

/-- A form and what it is built from; without fields it takes every entry. -/
structure FormBody where
  kind : FormKind
  source : String
  fields : Option (List FormField)
  deriving DecidableEq

namespace FormField

/-- The property of the body, spelled as its type spells it. -/
def accessor (source : String) (f : FormField) : String :=
  if Naming.propertyKey f.name = f.name then source ++ "." ++ f.name
  else source ++ "['" ++ f.name ++ "']"

/-- The statement that appends the field. -/
def append (kind : FormKind) (source : String) (f : FormField) : String :=
  let target := kind.name ++ ".append('" ++ f.name ++ "', "
  if f.perItem then
    f.accessor source ++ ".forEach(value => " ++ target ++ f.conversion.apply "value" ++ "));"
  else target ++ f.conversion.apply (f.accessor source) ++ ");"

def lines (kind : FormKind) (source : String) (f : FormField) : List String :=
  if f.required then ["  " ++ f.append kind source]
  else
    ["  if (" ++ f.accessor source ++ " !== undefined) \x7b",
      "    " ++ f.append kind source, "  \x7d"]

end FormField

namespace FormBody

/-- The statements that build the form. -/
def lines (f : FormBody) : List String :=
  ("  const " ++ f.kind.name ++ " = new " ++ f.kind.constructor ++ "();") ::
    match f.fields with
    | some fields => fields.flatMap (FormField.lines f.kind f.source)
    | none =>
      ["  Object.entries(" ++ f.source ++ ").forEach(([key, value]) => " ++ f.kind.name ++
        ".append(key, " ++ Conversion.textOrJson.apply "value" ++ "));"]

/-- How a value of a schema becomes the text of a form field. -/
def conversionFor (schema : Entries) : Attempt Conversion :=
  match Entries.get? "type" schema with
  | some (.atom (.str name)) =>
    if name = "string" then .ok .none
    else if name = "integer" ∨ name = "number" ∨ name = "boolean" then .ok .toText
    else .ok .json
  | none => .ok .json
  | some (.atom _) => .ok .json
  | some _ => illShaped

/-- The form field for a property. -/
def fieldOf (required : List String) (key : Scalar) (schema : Value) : Attempt FormField := do
  let name ← Contract.textOf (.atom key)
  let schema ← Api.asMap schema
  let isRequired := required.contains name
  match Entries.get? "type" schema with
  | some (.atom (.str "array")) =>
    match Entries.get? "items" schema with
    | some (.map items) => return ⟨name, isRequired, true, ← conversionFor items⟩
    | _ => return ⟨name, isRequired, true, .textOrJson⟩
  | _ => return ⟨name, isRequired, false, ← conversionFor schema⟩

/-- The form for a body that is read from a variable. -/
def ofSchema (kind : FormKind) (source : String) (schema : Option Value) :
    Attempt FormBody := do
  let schema := schema.getD (.map [])
  let entries ← if schema.truthy then Api.asMap schema else pure []
  if !Entries.given "properties" entries then return ⟨kind, source, none⟩
  else
    let required ← Schema.requiredNames (Entries.get? "required" entries)
    let properties ← Api.asMap ((Entries.get? "properties" entries).getD .null)
    let fields ← properties.mapM fun (key, schema) => fieldOf required key schema
    return ⟨kind, source, some fields⟩

/-- How the body of a contract is sent as a form, if it is. -/
def kind? (body : Body) : Option FormKind :=
  if body.isFormData then some .formData
  else if body.isFormUrlEncoded then some .urlEncoded
  else none

end FormBody

end ClientForge
