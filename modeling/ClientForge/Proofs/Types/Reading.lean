/-
# ClientForge.Proofs.Types.Reading -- what reading a schema looks at

Reading a schema looks at the values under a few keys, and at each of them in one way, which
depends on the key (`positionOf?`): as it is, as a schema, as a list of schemas, or as
properties.  An object type is put together of the members for its properties and of one for all
others (`objectType_eq`).

`AlikeAt` says when two values make no difference where they stand.  Two maps whose values are
alike under all of these keys describe the same type (`read_congr`), whatever else they hold.
-/
import ClientForge.Proofs.Data.Part
import ClientForge.Types.Schema

namespace ClientForge.Schema

set_option autoImplicit false

/-- What a value stands for in a schema. -/
inductive Position where
  | literal
  | schema
  | members
  | properties
  deriving DecidableEq

/-- What the value under a key of a schema stands for; reading passes all other keys over. -/
def positionOf? (key : String) : Option Position :=
  if key ∈ ["nullable", "enum", "const", "type", "format", "required"] then some .literal
  else if key ∈ ["items", "additionalProperties"] then some .schema
  else if key ∈ ["oneOf", "anyOf", "allOf"] then some .members
  else if key = "properties" then some .properties
  else none

/-! ## The values under a key -/

section Keys

variable (useDates : Bool)

theorem readAt_eq (key : String) (entries : Entries) :
    readAt useDates key entries =
      ((Entries.get? key entries).map (read useDates false)).getD (.ok .unknown) := by
  induction entries with
  | nil => rfl
  | cons entry rest ih =>
      obtain ⟨k, v⟩ := entry
      by_cases h : k = .str key
      · rw [readAt, if_pos h, h, Entries.get?_cons_self]
        rfl
      · rw [readAt, if_neg h, Entries.get?_cons_of_ne h, ih]

theorem readItems_eq (items : List Value) :
    readItems useDates items = items.mapM (read useDates false) := by
  induction items with
  | nil => rfl
  | cons v rest ih =>
      rw [readItems, List.mapM_cons, ih]

/-- The types of the members that a value lists. -/
def readMembers (v : Value) : Attempt (List TypeExpr) :=
  match v with
  | .list items => readItems useDates items
  | v =>
    match v.elements? with
    | some parts => .ok (parts.map fun _ => .unknown)
    | none => illShaped

theorem readMembersAt_eq (key : String) (entries : Entries) :
    readMembersAt useDates key entries =
      ((Entries.get? key entries).map (readMembers useDates)).getD (.ok []) := by
  induction entries with
  | nil => rfl
  | cons entry rest ih =>
      obtain ⟨k, v⟩ := entry
      by_cases h : k = .str key
      · rw [h, Entries.get?_cons_self]
        unfold readMembersAt
        rw [if_pos rfl]
        cases v <;> rfl
      · unfold readMembersAt
        rw [if_neg h, Entries.get?_cons_of_ne h, ih]

/-- The properties that a value holds. -/
def propertiesOf (required : List String) (v : Value) : Attempt (List (MemberKey × TypeExpr)) :=
  match v with
  | .map properties => readProperties useDates required properties
  | _ => illShaped

theorem readPropertiesAt_eq (required : List String) (entries : Entries) :
    readPropertiesAt useDates required entries =
      ((Entries.get? "properties" entries).map (propertiesOf useDates required)).getD
        (.ok []) := by
  induction entries with
  | nil => rfl
  | cons entry rest ih =>
      obtain ⟨k, v⟩ := entry
      by_cases h : k = .str "properties"
      · rw [h, Entries.get?_cons_self]
        unfold readPropertiesAt
        rw [if_pos rfl]
        cases v <;> rfl
      · unfold readPropertiesAt
        rw [if_neg h, Entries.get?_cons_of_ne h, ih]

end Keys

/-! ## Members of an object type -/

/-- The properties of an object type. -/
def declaredMembers (entries : Entries)
    (properties : List String → Attempt (List (MemberKey × TypeExpr))) :
    Attempt (List (MemberKey × TypeExpr)) :=
  if Entries.given "properties" entries then
    requiredNames (Entries.get? "required" entries) >>= properties
  else .ok []

/-- The member of an object type for all other properties. -/
def otherMembers (entries : Entries) (additional : Attempt TypeExpr) :
    Attempt (List (MemberKey × TypeExpr)) :=
  match Entries.get? "additionalProperties" entries with
  | some (.map (_ :: _)) => additional.map fun e => [(.index, e)]
  | some (.atom (.bool false)) => .ok []
  | _ => .ok (if Entries.given "properties" entries then [] else [(.index, .unknown)])

theorem objectType_eq (entries : Entries)
    (properties : List String → Attempt (List (MemberKey × TypeExpr)))
    (additional : Attempt TypeExpr) :
    objectType entries properties additional =
      (declaredMembers entries properties >>= fun members =>
        otherMembers entries additional >>= fun others =>
          .ok (TypeExpr.object (members ++ others))) := by
  unfold objectType declaredMembers otherMembers
  generalize Entries.get? "additionalProperties" entries = further
  generalize Entries.given "properties" entries = given
  generalize requiredNames (Entries.get? "required" entries) = required
  -- once the shape of the further value is known, both sides compute
  rcases further with _ | (a | items | (_ | ⟨entry, rest⟩))
  · cases given <;> cases required <;> rfl
  · cases a with
    | bool b => cases b <;> cases given <;> cases required <;> rfl
    | _ => cases given <;> cases required <;> rfl
  · cases given <;> cases required <;> rfl
  · cases given <;> cases required <;> rfl
  · cases additional <;> cases given <;> cases required <;> rfl

/-! ## Maps that describe the same type -/

/-- Two values of one kind: the same scalar, or lists of one length, or maps that are both
empty or both not. -/
def SameKind : Value → Value → Prop
  | .atom a, .atom b => a = b
  | .list items, .list items' => items.length = items'.length
  | .map entries, .map entries' => entries.isEmpty = entries'.isEmpty
  | _, _ => False

theorem SameKind.refl (v : Value) : SameKind v v := by
  cases v <;> rfl

theorem SameKind.truthy {v w : Value} (same : SameKind v w) : w.truthy = v.truthy := by
  cases v with
  | atom a =>
      cases w with
      | atom b => rw [show a = b from same]
      | list items => cases same
      | map entries => cases same
  | list items =>
      cases w with
      | atom b => cases same
      | list items' =>
          have length : items.length = items'.length := same
          cases items <;> cases items' <;> simp_all [Value.truthy]
      | map entries => cases same
  | map entries =>
      cases w with
      | atom b => cases same
      | list items => cases same
      | map entries' => rw [Value.truthy, Value.truthy, show _ = _ from same]

/-- Two values make no difference at a position. -/
def AlikeAt (useDates : Bool) : Position → Value → Value → Prop
  | .literal, v, w => w = v
  | .schema, v, w => SameKind v w ∧ read useDates false w = read useDates false v
  | .members, v, w => SameKind v w ∧ readMembers useDates w = readMembers useDates v
  | .properties, v, w =>
    SameKind v w ∧ ∀ required, propertiesOf useDates required w = propertiesOf useDates required v

theorem AlikeAt.refl (useDates : Bool) (position : Position) (v : Value) :
    AlikeAt useDates position v v := by
  cases position with
  | literal => rfl
  | schema => exact ⟨.refl v, rfl⟩
  | members => exact ⟨.refl v, rfl⟩
  | properties => exact ⟨.refl v, fun _ => rfl⟩

theorem AlikeAt.sameKind {useDates : Bool} {position : Position} {v w : Value}
    (alike : AlikeAt useDates position v w) : SameKind v w := by
  cases position with
  | literal =>
      obtain rfl : w = v := alike
      exact .refl w
  | schema => exact alike.1
  | members => exact alike.1
  | properties => exact alike.1

/-- All that reading a map looks at, compared for two maps. -/
structure Alike (useDates : Bool) (entries entries' : Entries) : Prop where
  isEmpty : entries'.isEmpty = entries.isEmpty
  reference : Entries.get? "$ref" entries' = Entries.get? "$ref" entries
  name : Entries.get? schemaNameKey entries' = Entries.get? schemaNameKey entries
  values : ∀ key position, positionOf? key = some position →
    Option.Rel (AlikeAt useDates position) (Entries.get? key entries)
      (Entries.get? key entries')

namespace Alike

variable {useDates : Bool} {entries entries' : Entries}

theorem literal (alike : Alike useDates entries entries') (key : String)
    (literal : positionOf? key = some .literal) :
    Entries.get? key entries' = Entries.get? key entries := by
  have same := alike.values key .literal literal
  generalize Entries.get? key entries = v at same ⊢
  generalize Entries.get? key entries' = w at same ⊢
  cases same with
  | none => rfl
  | some same => exact congrArg some same

/-- What is compared by kind is given or not given in both maps. -/
theorem given (alike : Alike useDates entries entries') (key : String) (position : Position)
    (known : positionOf? key = some position) :
    Entries.given key entries' = Entries.given key entries := by
  have same := alike.values key position known
  unfold Entries.given
  generalize Entries.get? key entries = v at same ⊢
  generalize Entries.get? key entries' = w at same ⊢
  cases same with
  | none => rfl
  | some same => exact same.sameKind.truthy

theorem has (alike : Alike useDates entries entries') (key : String) (position : Position)
    (known : positionOf? key = some position) :
    Entries.has key entries' = Entries.has key entries := by
  have same := alike.values key position known
  unfold Entries.has
  generalize Entries.get? key entries = v at same ⊢
  generalize Entries.get? key entries' = w at same ⊢
  cases same <;> rfl

theorem readAt (alike : Alike useDates entries entries') (key : String)
    (known : positionOf? key = some .schema) :
    readAt useDates key entries' = readAt useDates key entries := by
  have same := alike.values key .schema known
  rw [readAt_eq, readAt_eq]
  generalize Entries.get? key entries = v at same ⊢
  generalize Entries.get? key entries' = w at same ⊢
  cases same with
  | none => rfl
  | some same => exact same.2

theorem readMembersAt (alike : Alike useDates entries entries') (key : String)
    (known : positionOf? key = some .members) :
    readMembersAt useDates key entries' = readMembersAt useDates key entries := by
  have same := alike.values key .members known
  rw [readMembersAt_eq, readMembersAt_eq]
  generalize Entries.get? key entries = v at same ⊢
  generalize Entries.get? key entries' = w at same ⊢
  cases same with
  | none => rfl
  | some same => exact same.2

theorem readPropertiesAt (alike : Alike useDates entries entries') (required : List String) :
    readPropertiesAt useDates required entries' = readPropertiesAt useDates required entries := by
  have same := alike.values "properties" .properties rfl
  rw [readPropertiesAt_eq, readPropertiesAt_eq]
  generalize Entries.get? "properties" entries = v at same ⊢
  generalize Entries.get? "properties" entries' = w at same ⊢
  cases same with
  | none => rfl
  | some same => exact same.2 required

theorem withNull (alike : Alike useDates entries entries') :
    withNull entries' = withNull entries := by
  funext e
  rw [Schema.withNull, Schema.withNull, alike.given "nullable" .literal rfl]

theorem nameOf? (alike : Alike useDates entries entries') :
    nameOf? entries' = nameOf? entries := by
  rw [Schema.nameOf?, Schema.nameOf?, alike.name]

theorem typeNamed (alike : Alike useDates entries entries') (array object : Attempt TypeExpr) :
    typeNamed useDates entries' array object = typeNamed useDates entries array object := by
  funext name
  unfold Schema.typeNamed
  rw [alike.has "properties" .properties rfl,
    alike.literal "format" rfl]

theorem objectType (alike : Alike useDates entries entries')
    (properties : List String → Attempt (List (MemberKey × TypeExpr)))
    (additional : Attempt TypeExpr) :
    objectType entries' properties additional = objectType entries properties additional := by
  have same := alike.values "additionalProperties" .schema rfl
  unfold Schema.objectType
  rw [alike.given "properties" .properties rfl,
    alike.literal "required" rfl]
  generalize Entries.get? "additionalProperties" entries = v at same ⊢
  generalize Entries.get? "additionalProperties" entries' = w at same ⊢
  cases same with
  | none => rfl
  | @some v w same =>
      -- only the kind of the value counts here, its type comes with `additional`
      have kind := same.sameKind
      clear same
      cases v <;> cases w <;> try cases kind
      · rfl
      · rfl
      · rename_i fields fields'
        have empty : fields.isEmpty = fields'.isEmpty := kind
        cases fields <;> cases fields' <;> first | rfl | cases empty

end Alike

section Congruence

variable {useDates : Bool}

theorem isEmpty_congr {entries entries' : Entries}
    (keys : entries.map Prod.fst = entries'.map Prod.fst) :
    entries'.isEmpty = entries.isEmpty := by
  cases entries <;> cases entries' <;> simp_all

theorem readItems_congr {items items' : List Value}
    (each : List.Forall₂ (AlikeAt useDates .schema) items items') :
    readItems useDates items' = readItems useDates items := by
  induction each with
  | nil => rfl
  | cons first _ ih => rw [readItems, readItems, first.2, ih]

theorem readProperties_congr {entries entries' : Entries} (required : List String)
    (each : Entries.Pointwise (AlikeAt useDates .schema) entries entries') :
    readProperties useDates required entries' = readProperties useDates required entries := by
  induction each with
  | nil => rfl
  | @cons entry entry' _ _ first _ ih =>
      obtain ⟨k, v⟩ := entry
      obtain ⟨k', v'⟩ := entry'
      obtain ⟨rfl, alike⟩ := first
      cases k with
      | str name => rw [readProperties, readProperties, alike.2, ih]
      | _ => rfl

/-- Maps that are alike describe the same type. -/
theorem read_congr {entries entries' : Entries}
    (alike : Alike useDates entries entries') (inlineNamed : Bool) :
    read useDates inlineNamed (.map entries') = read useDates inlineNamed (.map entries) := by
  have properties : (fun required => readPropertiesAt useDates required entries') =
      fun required => readPropertiesAt useDates required entries :=
    funext alike.readPropertiesAt
  unfold read
  rw [alike.isEmpty, alike.reference, alike.nameOf?, alike.withNull,
    alike.given "oneOf" .members rfl,
    alike.given "anyOf" .members rfl,
    alike.given "allOf" .members rfl,
    alike.given "enum" .literal rfl,
    alike.readMembersAt "oneOf" rfl, alike.readMembersAt "anyOf" rfl,
    alike.readMembersAt "allOf" rfl, alike.readAt "items" rfl,
    alike.readAt "additionalProperties" rfl, alike.literal "enum" rfl,
    alike.literal "const" rfl, alike.literal "type" rfl, properties,
    alike.objectType]
  dsimp only
  rw [alike.typeNamed]

end Congruence

end ClientForge.Schema
