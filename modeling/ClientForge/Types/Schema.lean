/-
# ClientForge.Types.Schema -- the type that a schema describes

A schema is any value.  One that is no map, or an empty one, says nothing.  Otherwise the
first of these that applies decides: a reference that was left in place, a schema name,
`oneOf`, `anyOf`, `allOf`, `enum`, `const`, and last the type, which may be a list of types.
What counts as absent is what does not count as given, so an empty `oneOf` is passed over.
A truthy `nullable` adds null to whatever was found.

With `useDates` a string of format date or date-time is a date.  With `inlineNamed` the
schema's own name is passed over, which is how the type is read that the name stands for;
names further inside still count.

A value of the wrong shape is refused where the rules have to look into it, and only there.
-/
import ClientForge.Types.Expression
import ClientForge.Reference.Resolver

namespace ClientForge.Schema

set_option autoImplicit false

mutual

/-- Whether a schema declares a default, itself or through `allOf`. -/
def hasDefault : Value → Bool
  | .map entries => Entries.has "default" entries || anyHasDefaultAt entries
  | .atom _ => false
  | .list _ => false

/-- Whether an item of the list under `allOf` declares a default. -/
def anyHasDefaultAt : List (Scalar × Value) → Bool
  | [] => false
  | (k, v) :: rest =>
    if k = .str "allOf" then
      match v with
      | .list items => anyHasDefault items
      | _ => false
    else anyHasDefaultAt rest

def anyHasDefault : List Value → Bool
  | [] => false
  | v :: rest => hasDefault v || anyHasDefault rest

end

/-- The property names that a list of required names, or what stands for it, holds. -/
def requiredNames : Option Value → Attempt (List String)
  | none => .ok []
  | some v =>
    match v.elements? with
    | none => illShaped
    | some items =>
      if items.all fun item => item.scalar?.isSome then
        .ok (items.filterMap fun
          | .atom (.str name) => some name
          | _ => none)
      else illShaped

/-- The literal types of an enumeration. -/
def literals (v : Value) : Attempt (List TypeExpr) :=
  match v.elements? with
  | none => illShaped
  | some items => items.mapM literal
where
  literal (item : Value) : Attempt TypeExpr :=
    if (Literal.typeText? item).isSome then .ok (.literal item) else illShaped

/-- The type of a string of a format. -/
def stringType (useDates : Bool) (format : Option Value) : Attempt TypeExpr :=
  match format with
  | some (.atom (.str "binary")) => .ok (.primitive .blob)
  | some (.atom (.str name)) =>
    if useDates ∧ (name = "date" ∨ name = "date-time") then .ok (.primitive .date)
    else .ok (.primitive .string)
  | some (.atom _) => .ok (.primitive .string)
  | some _ => if useDates then illShaped else .ok (.primitive .string)
  | none => .ok (.primitive .string)

/-- The type that a type name stands for, given the types that the schema describes as an
array and as an object. -/
def typeNamed (useDates : Bool) (entries : Entries) (array object : Attempt TypeExpr)
    (name : Value) : Attempt TypeExpr :=
  let other := if Entries.has "properties" entries then object else .ok .unknown
  match name with
  | .atom (.str name) =>
    if name = "string" then stringType useDates (Entries.get? "format" entries)
    else if name = "integer" ∨ name = "number" then .ok (.primitive .number)
    else if name = "boolean" then .ok (.primitive .boolean)
    else if name = "null" then .ok (.primitive .null)
    else if name = "array" then array
    else if name = "object" then object
    else other
  | .atom _ => other
  | _ => illShaped

/-- Add null to a type whose schema says so. -/
def withNull (entries : Entries) (e : TypeExpr) : TypeExpr :=
  if Entries.given "nullable" entries then .nullable e else e

/-- A reference that was left in place names a component schema. -/
def ofReference : Value → Attempt TypeExpr
  | .atom (.str reference) =>
    if isSchemaReference reference then
      .ok (.named (String.ofList (reference.toList.drop schemaReferenceStart.length)))
    else reject (.foreignReference reference)
  | _ => illShaped

/-- The name that a schema goes by. -/
def nameOf? (entries : Entries) : Option String :=
  match Entries.get? schemaNameKey entries with
  | some (.atom (.str name)) => if name = "" then none else some name
  | _ => none

/-- The type of an object: its properties, given how to read them once it is known which are
required, then a member for all others, given its type.  Without any property everything is
allowed, unless the schema says otherwise. -/
def objectType (entries : Entries)
    (properties : List String → Attempt (List (MemberKey × TypeExpr)))
    (additional : Attempt TypeExpr) : Attempt TypeExpr := do
  let hasProperties := Entries.given "properties" entries
  let members ←
    if hasProperties then do
      let required ← requiredNames (Entries.get? "required" entries)
      properties required
    else pure []
  let others ←
    match Entries.get? "additionalProperties" entries with
    | some (.map (_ :: _)) => do
      let e ← additional
      pure [(MemberKey.index, e)]
    | some (.atom (.bool false)) => pure []
    | _ => pure (if hasProperties then [] else [(MemberKey.index, TypeExpr.unknown)])
  return .object (members ++ others)

section Reading

variable (useDates : Bool)

mutual

/-- The type that a schema describes. -/
def read (inlineNamed : Bool) : Value → Attempt TypeExpr
  | .atom _ => .ok .unknown
  | .list _ => .ok .unknown
  | .map entries =>
    if entries.isEmpty then .ok .unknown
    else
      match Entries.get? "$ref" entries with
      | some reference => (ofReference reference).map (withNull entries)
      | none =>
        match (if inlineNamed then none else nameOf? entries) with
        | some name => .ok (withNull entries (.named name))
        | none =>
          if Entries.given "oneOf" entries then
            (readMembersAt "oneOf" entries).map fun es => withNull entries (.union es)
          else if Entries.given "anyOf" entries then
            (readMembersAt "anyOf" entries).map fun es => withNull entries (.union es)
          else if Entries.given "allOf" entries then
            (readMembersAt "allOf" entries).map fun es => withNull entries (.intersection es)
          else if Entries.given "enum" entries then
            (literals ((Entries.get? "enum" entries).getD .null)).map fun es =>
              withNull entries (.choice es)
          else
            match Entries.get? "const" entries with
            | some value => (literals.literal value).map (withNull entries)
            | none =>
              let array := (readAt "items" entries).map .array
              let object :=
                objectType entries (fun required => readPropertiesAt required entries)
                  (readAt "additionalProperties" entries)
              match Entries.get? "type" entries with
              | some (.list types) =>
                (types.mapM (typeNamed useDates entries array object)).map fun es =>
                  withNull entries (.choice es)
              | type =>
                (typeNamed useDates entries array object (type.getD .null)).map
                  (withNull entries)

/-- The type that the value under a key describes. -/
def readAt (key : String) : List (Scalar × Value) → Attempt TypeExpr
  | [] => .ok .unknown
  | (k, v) :: rest => if k = .str key then read false v else readAt key rest

/-- The types that the items under a key describe. -/
def readMembersAt (key : String) : List (Scalar × Value) → Attempt (List TypeExpr)
  | [] => .ok []
  | (k, v) :: rest =>
    if k = .str key then
      match v with
      | .list items => readItems items
      | v =>
        match v.elements? with
        | some parts => .ok (parts.map fun _ => .unknown)
        | none => illShaped
    else readMembersAt key rest

def readItems : List Value → Attempt (List TypeExpr)
  | [] => .ok []
  | v :: rest => do
    let e ← read false v
    let es ← readItems rest
    return e :: es

/-- The properties under `properties`. -/
def readPropertiesAt (required : List String) :
    List (Scalar × Value) → Attempt (List (MemberKey × TypeExpr))
  | [] => .ok []
  | (k, v) :: rest =>
    if k = .str "properties" then
      match v with
      | .map properties => readProperties required properties
      | _ => illShaped
    else readPropertiesAt required rest

def readProperties (required : List String) :
    List (Scalar × Value) → Attempt (List (MemberKey × TypeExpr))
  | [] => .ok []
  | (k, v) :: rest =>
    match k with
    | .str name => do
      let e ← read false v
      let members ← readProperties required rest
      return (.property name (!required.contains name), e) :: members
    | _ => illShaped

end

end Reading

/-- The type that a schema describes, with its text and its imports. -/
def resolve (useDates : Bool) (schema : Value) (inlineNamed : Bool) : Attempt ResolvedType :=
  (read useDates inlineNamed schema).map TypeExpr.resolved

end ClientForge.Schema
