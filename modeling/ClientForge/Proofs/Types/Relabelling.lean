/-
# ClientForge.Proofs.Types.Relabelling -- schemas with other literals

`relabelled f` changes the strings of a schema that are literals, by any map, and nothing else:
the strings in the elements of an enumeration and in a constant, wherever a schema may stand.
Keys of maps stay, and so do names and formats.

What a schema is read as does not depend on its literals: a relabelled schema fails as the
schema does, or is the relabelled expression (`read_relabelled`).  Reading looks at the values
under the keys of a map (`get?_relabelledEntries`), and at each of them in a way that
relabelling leaves open; so each rule that may decide about a schema commutes with it.
-/
import ClientForge.Proofs.Types.Description

namespace ClientForge

set_option autoImplicit false

/-! ## Values and expressions -/

namespace Value

mutual

/-- A value with other strings, but with the same keys. -/
def relabel (f : String → String) : Value → Value
  | .atom (.str s) => .str (f s)
  | .atom a => .atom a
  | .list items => .list (relabelItems f items)
  | .map entries => .map (relabelEntries f entries)

def relabelItems (f : String → String) : List Value → List Value
  | [] => []
  | v :: rest => relabel f v :: relabelItems f rest

def relabelEntries (f : String → String) : List (Scalar × Value) → List (Scalar × Value)
  | [] => []
  | (k, v) :: rest => (k, relabel f v) :: relabelEntries f rest

end

variable (f : String → String)

/-- A value that can be written in JSON can be written with other strings, and no other can. -/
theorem print?_relabel_isSome (v : Value) :
    (Json.print? (v.relabel f)).isSome = (Json.print? v).isSome := by
  induction v with
  | atom a => cases a <;> rfl
  | list items ih =>
      have each : (Json.printItems? (relabelItems f items)).isSome =
          (Json.printItems? items).isSome := by
        induction items with
        | nil => rfl
        | cons v rest later =>
            have first := ih v List.mem_cons_self
            have others := later fun w member => ih w (List.mem_cons_of_mem _ member)
            rw [relabelItems, Json.printItems?, Json.printItems?]
            cases written : Json.print? v <;> cases again : Json.print? (relabel f v) <;>
              simp_all [Option.isSome_bind]
      rw [relabel, Json.print?, Json.print?]
      simpa [Option.isSome_bind] using each
  | map entries ih =>
      have each : (Json.printEntries? (relabelEntries f entries)).isSome =
          (Json.printEntries? entries).isSome := by
        induction entries with
        | nil => rfl
        | cons entry rest later =>
            obtain ⟨k, v⟩ := entry
            have first := ih _ List.mem_cons_self
            have others := later fun e member => ih e (List.mem_cons_of_mem _ member)
            rw [relabelEntries, Json.printEntries?, Json.printEntries?]
            cases named : Json.printKey? k <;> cases written : Json.print? v <;>
              cases again : Json.print? (relabel f v) <;> simp_all [Option.isSome_bind]
      rw [relabel, Json.print?, Json.print?]
      simpa [Option.isSome_bind] using each

theorem typeText?_relabel_isSome (v : Value) :
    (Literal.typeText? (v.relabel f)).isSome = (Literal.typeText? v).isSome := by
  cases v with
  | atom a => cases a <;> rfl
  | list items => exact print?_relabel_isSome f (.list items)
  | map entries => exact print?_relabel_isSome f (.map entries)

end Value

namespace TypeExpr

mutual

/-- An expression with other strings in its literals. -/
def relabel (f : String → String) : TypeExpr → TypeExpr
  | .unknown => .unknown
  | .primitive p => .primitive p
  | .named schema => .named schema
  | .literal value => .literal (value.relabel f)
  | .array item => .array (relabel f item)
  | .union members => .union (relabelList f members)
  | .choice members => .choice (relabelList f members)
  | .intersection members => .intersection (relabelList f members)
  | .object members => .object (relabelMembers f members)
  | .nullable base => .nullable (relabel f base)

def relabelList (f : String → String) : List TypeExpr → List TypeExpr
  | [] => []
  | e :: rest => relabel f e :: relabelList f rest

def relabelMembers (f : String → String) :
    List (MemberKey × TypeExpr) → List (MemberKey × TypeExpr)
  | [] => []
  | (key, e) :: rest => (key, relabel f e) :: relabelMembers f rest

end

variable (f : String → String)

theorem relabelList_eq (es : List TypeExpr) : relabelList f es = es.map (relabel f) := by
  induction es with
  | nil => rfl
  | cons e rest ih => rw [relabelList, ih, List.map_cons]

/-- A member of an object type, with other strings in the literals of its type. -/
def relabelMember (member : MemberKey × TypeExpr) : MemberKey × TypeExpr :=
  (member.1, member.2.relabel f)

theorem relabelMembers_eq (members : List (MemberKey × TypeExpr)) :
    relabelMembers f members = members.map (relabelMember f) := by
  induction members with
  | nil => rfl
  | cons member rest ih =>
      obtain ⟨key, e⟩ := member
      rw [relabelMembers, ih, List.map_cons]
      rfl

mutual

theorem names_relabel : ∀ e : TypeExpr, (e.relabel f).names = e.names
  | .unknown | .primitive _ | .named _ | .literal _ => by simp only [relabel, names]
  | .array item => by rw [relabel, names, names, names_relabel item]
  | .union members => by rw [relabel, names, names, namesOfList_relabel members]
  | .choice members => by rw [relabel, names, names, namesOfList_relabel members]
  | .intersection members => by rw [relabel, names, names, namesOfList_relabel members]
  | .object members => by rw [relabel, names, names, namesOfMembers_relabel members]
  | .nullable base => by rw [relabel, names, names, names_relabel base]

theorem namesOfList_relabel : ∀ es : List TypeExpr, namesOfList (relabelList f es) = namesOfList es
  | [] => rfl
  | e :: rest => by
      rw [relabelList, namesOfList, namesOfList, names_relabel e, namesOfList_relabel rest]

theorem namesOfMembers_relabel : ∀ members : List (MemberKey × TypeExpr),
    namesOfMembers (relabelMembers f members) = namesOfMembers members
  | [] => rfl
  | (key, e) :: rest => by
      rw [relabelMembers, namesOfMembers, namesOfMembers, names_relabel e,
        namesOfMembers_relabel rest]

end

/-- Other literals need no other imports. -/
theorem imports_relabel (e : TypeExpr) : (e.relabel f).imports = e.imports := by
  rw [imports, imports, names_relabel]

end TypeExpr

/-! ## Schemas -/

namespace Schema

variable (f : String → String)

/-- What an enumeration lists, with other strings. -/
def relabelledElements (v : Value) : Value :=
  match v.elements? with
  | some items => .list (items.map (Value.relabel f))
  | none => v

mutual

/-- What stands at a position of a schema, with other strings in its literals. -/
def relabelledAt : Position → Value → Value
  | .schema, .map entries => .map (relabelledEntries entries)
  | .members, .list items => .list (relabelledItems items)
  | .properties, .map properties => .map (relabelledProperties properties)
  | _, v => v

def relabelledEntries : List (Scalar × Value) → List (Scalar × Value)
  | [] => []
  | (k, v) :: rest =>
    (k,
      if k = .str "enum" then relabelledElements f v
      else if k = .str "const" then v.relabel f
      else
        match k with
        | .str key =>
          match positionOf? key with
          | some position => relabelledAt position v
          | none => v
        | _ => v) :: relabelledEntries rest

def relabelledItems : List Value → List Value
  | [] => []
  | v :: rest => relabelledAt .schema v :: relabelledItems rest

def relabelledProperties : List (Scalar × Value) → List (Scalar × Value)
  | [] => []
  | (k, v) :: rest => (k, relabelledAt .schema v) :: relabelledProperties rest

end

/-- A schema with other strings in its enumerations and constants. -/
def relabelled (schema : Value) : Value := relabelledAt f .schema schema

/-! ## What a map holds -/

/-- What stands under a key of a schema, with other strings in its literals. -/
def relabelledUnder (key : String) (v : Value) : Value :=
  if key = "enum" then relabelledElements f v
  else if key = "const" then v.relabel f
  else
    match positionOf? key with
    | some position => relabelledAt f position v
    | none => v

theorem relabelledItems_eq (items : List Value) :
    relabelledItems f items = items.map (relabelled f) := by
  induction items with
  | nil => rfl
  | cons v rest ih => rw [relabelledItems, ih, List.map_cons, relabelled]

/-- A relabelled map has under each key what stands there, relabelled. -/
theorem get?_relabelledEntries (key : String) (entries : Entries) :
    Entries.get? key (relabelledEntries f entries) =
      (Entries.get? key entries).map (relabelledUnder f key) := by
  induction entries with
  | nil => rfl
  | cons entry rest ih =>
      obtain ⟨k, v⟩ := entry
      by_cases same : k = .str key
      · subst same
        rw [relabelledEntries, Entries.get?_cons_self, Entries.get?_cons_self, Option.map_some,
          relabelledUnder]
        simp only [Scalar.str.injEq]
      · unfold relabelledEntries
        rw [Entries.get?_cons_of_ne same, Entries.get?_cons_of_ne same, ih]

section Map

variable {entries : Entries}

/-- Where no literal stands and no schema, nothing is changed. -/
theorem get?_of_other {key : String} (enum : key ≠ "enum") (const : key ≠ "const")
    (other : positionOf? key = none ∨ positionOf? key = some .literal) :
    Entries.get? key (relabelledEntries f entries) = Entries.get? key entries := by
  have same : relabelledUnder f key = id := by
    funext v
    rw [relabelledUnder, if_neg enum, if_neg const]
    rcases other with none | literal
    · rw [none]
      rfl
    · rw [literal]
      cases v <;> rfl
  rw [get?_relabelledEntries, same, Option.map_id, id]

theorem truthy_relabelledElements (v : Value) : (relabelledElements f v).truthy = v.truthy := by
  cases v with
  | list items => cases items <;> rfl
  | map entries => cases entries <;> rfl
  | atom a =>
      cases a with
      | str s =>
          rw [Bool.eq_iff_iff]
          simp [relabelledElements, Value.elements?, Value.truthy, Scalar.truthy]
      | _ => rfl

theorem truthy_relabelledAt (position : Position) (v : Value) :
    (relabelledAt f position v).truthy = v.truthy := by
  cases position <;> cases v <;> try rfl
  case schema.map entries => cases entries <;> rfl
  case members.list items => cases items <;> rfl
  case properties.map properties => cases properties <;> rfl

/-- What is given stays given. -/
theorem given_relabelledEntries (key : String) (const : key ≠ "const") :
    Entries.given key (relabelledEntries f entries) = Entries.given key entries := by
  have truthy (v : Value) : (relabelledUnder f key v).truthy = v.truthy := by
    unfold relabelledUnder
    rw [if_neg const]
    split
    · exact truthy_relabelledElements f v
    · split
      · exact truthy_relabelledAt f _ v
      · rfl
  unfold Entries.given
  rw [get?_relabelledEntries, Option.map_map]
  simp only [Function.comp_def, truthy]

theorem has_relabelledEntries (key : String) :
    Entries.has key (relabelledEntries f entries) = Entries.has key entries := by
  unfold Entries.has
  rw [get?_relabelledEntries, Option.isSome_map]

theorem nameOf?_relabelledEntries : nameOf? (relabelledEntries f entries) = nameOf? entries := by
  unfold nameOf?
  rw [get?_of_other f (by decide) (by decide) (Or.inl rfl)]

/-- The same rule decides. -/
theorem ruleFor_relabelledEntries (inlineNamed : Bool) :
    ruleFor inlineNamed (relabelledEntries f entries) = ruleFor inlineNamed entries := by
  unfold ruleFor
  simp only [has_relabelledEntries, nameOf?_relabelledEntries,
    given_relabelledEntries f "oneOf" (by decide),
    given_relabelledEntries f "anyOf" (by decide),
    given_relabelledEntries f "allOf" (by decide),
    given_relabelledEntries f "enum" (by decide)]

theorem withNull_relabelledEntries (e : TypeExpr) :
    withNull (relabelledEntries f entries) (e.relabel f) = (withNull entries e).relabel f := by
  unfold withNull
  rw [given_relabelledEntries f "nullable" (by decide)]
  split
  · rw [TypeExpr.relabel]
  · rfl

end Map

/-! ## One rule at a time -/

theorem literal_relabel (v : Value) :
    literals.literal (v.relabel f) = (literals.literal v).map (TypeExpr.relabel f) := by
  unfold literals.literal
  rw [Value.typeText?_relabel_isSome]
  split
  · rw [Except.map, TypeExpr.relabel]
  · rfl

theorem literals_relabelledElements (v : Value) :
    literals (relabelledElements f v) = (literals v).map (List.map (TypeExpr.relabel f)) := by
  unfold literals relabelledElements
  cases elements : v.elements? with
  | none =>
      dsimp only
      rw [elements]
      rfl
  | some items =>
      have same : (items.map (Value.relabel f)).mapM literals.literal =
          (items.mapM literals.literal).map (List.map (TypeExpr.relabel f)) := by
        rw [List.mapM_map]
        exact Attempt.mapM_eq_map fun v _ => literal_relabel f v
      exact same

section Reading

variable {useDates : Bool} {entries : Entries}

/-- Every schema that stands in the map is read as its type, relabelled. -/
def ReadsRelabelled (useDates : Bool) (entries : Entries) : Prop :=
  ∀ v, Child entries v →
    read useDates false (relabelled f v) = (read useDates false v).map (TypeExpr.relabel f)

variable {f} (children : ReadsRelabelled f useDates entries)
include children

theorem readAt_relabelled {key : String} (under : key ∈ ["items", "additionalProperties"]) :
    readAt useDates key (relabelledEntries f entries) =
      (readAt useDates key entries).map (TypeExpr.relabel f) := by
  have position : relabelledUnder f key = relabelled f := by
    funext v
    simp only [List.mem_cons, List.not_mem_nil, or_false] at under
    rcases under with rfl | rfl <;> rfl
  rw [readAt_eq, readAt_eq, get?_relabelledEntries, position]
  cases found : Entries.get? key entries with
  | none => rfl
  | some v => exact children v (.under under found)

omit children in
/-- Of members that are not listed nothing is known. -/
theorem readMembers_unlisted (useDates : Bool) (v : Value) (noList : ∀ items, v ≠ .list items) :
    readMembers useDates v = (readMembers useDates v).map (List.map (TypeExpr.relabel f)) := by
  have unknown : TypeExpr.unknown.relabel f = .unknown := by rw [TypeExpr.relabel]
  unfold readMembers
  split
  · exact absurd rfl (noList _)
  · split
    · rename_i parts _
      rw [Except.map, List.map_map, Function.comp_def, unknown]
    · rfl

theorem readMembersAt_relabelled (rule : Rule) {key : String} {c : Connective}
    (joins : rule.joins? = some (key, c)) :
    readMembersAt useDates key (relabelledEntries f entries) =
      (readMembersAt useDates key entries).map (List.map (TypeExpr.relabel f)) := by
  have position : relabelledUnder f key = relabelledAt f .members := by
    funext v
    cases rule <;> cases joins <;> rfl
  rw [readMembersAt_eq, readMembersAt_eq, get?_relabelledEntries, position]
  cases found : Entries.get? key entries with
  | none => rfl
  | some v =>
      cases v with
      | list items =>
          have same : readItems useDates (relabelledItems f items) =
              (readItems useDates items).map (List.map (TypeExpr.relabel f)) := by
            rw [relabelledItems_eq, readItems_eq, readItems_eq, List.mapM_map]
            exact Attempt.mapM_eq_map fun item inside =>
              children item (.item joins found rfl inside)
          exact same
      | map fields => exact readMembers_unlisted useDates (.map fields) fun _ same => by cases same
      | atom a => exact readMembers_unlisted useDates (.atom a) fun _ same => by cases same

omit children in
theorem readProperties_relabelled (required : List String) {properties : Entries}
    (each : ∀ entry ∈ properties, read useDates false (relabelled f entry.2) =
      (read useDates false entry.2).map (TypeExpr.relabel f)) :
    readProperties useDates required (relabelledProperties f properties) =
      (readProperties useDates required properties).map
        (List.map (TypeExpr.relabelMember f)) := by
  induction properties with
  | nil => rfl
  | cons entry rest ih =>
      obtain ⟨k, v⟩ := entry
      have first := each _ List.mem_cons_self
      have later := ih fun entry member => each entry (List.mem_cons_of_mem _ member)
      cases k with
      | str name =>
          rw [relabelledProperties, readProperties, readProperties, later]
          unfold relabelled at first
          rw [first]
          cases read useDates false v with
          | error failure => rfl
          | ok e => cases readProperties useDates required rest <;> rfl
      | _ => rfl

theorem readPropertiesAt_relabelled (required : List String) :
    readPropertiesAt useDates required (relabelledEntries f entries) =
      (readPropertiesAt useDates required entries).map
        (List.map (TypeExpr.relabelMember f)) := by
  have position : relabelledUnder f "properties" = relabelledAt f .properties := by
    funext v
    rfl
  rw [readPropertiesAt_eq, readPropertiesAt_eq, get?_relabelledEntries, position]
  cases found : Entries.get? "properties" entries with
  | none => rfl
  | some v =>
      cases v with
      | map properties =>
          exact readProperties_relabelled required fun entry member =>
            children _ (.property found member)
      | _ => rfl

theorem declaredMembers_relabelled :
    declaredMembers (relabelledEntries f entries)
        (fun required => readPropertiesAt useDates required (relabelledEntries f entries)) =
      (declaredMembers entries fun required => readPropertiesAt useDates required entries).map
        (List.map (TypeExpr.relabelMember f)) := by
  unfold declaredMembers
  rw [given_relabelledEntries f "properties" (by decide),
    get?_of_other f (by decide) (by decide) (Or.inr (by decide))]
  split
  · cases requiredNames (Entries.get? "required" entries) with
    | error failure => rfl
    | ok required => exact readPropertiesAt_relabelled children required
  · rfl

theorem otherMembers_relabelled :
    otherMembers (relabelledEntries f entries)
        (readAt useDates "additionalProperties" (relabelledEntries f entries)) =
      (otherMembers entries (readAt useDates "additionalProperties" entries)).map
        (List.map (TypeExpr.relabelMember f)) := by
  rw [readAt_relabelled children (by decide)]
  unfold otherMembers
  rw [get?_relabelledEntries, given_relabelledEntries f "properties" (by decide)]
  cases found : Entries.get? "additionalProperties" entries with
  | none =>
      dsimp only [Option.map_none]
      cases Entries.given "properties" entries <;> rfl
  | some v =>
      have position : relabelledUnder f "additionalProperties" v = relabelledAt f .schema v := rfl
      rw [Option.map_some, position]
      -- only the kind of the value counts, and it stays
      rcases v with a | items | _ | ⟨entry, rest⟩
      · cases a with
        | bool b => cases b <;> cases Entries.given "properties" entries <;> rfl
        | _ => cases Entries.given "properties" entries <;> rfl
      · cases Entries.given "properties" entries <;> rfl
      · cases Entries.given "properties" entries <;> rfl
      · obtain ⟨k, v⟩ := entry
        cases readAt useDates "additionalProperties" entries <;> rfl

theorem objectType_relabelled :
    objectType (relabelledEntries f entries)
        (fun required => readPropertiesAt useDates required (relabelledEntries f entries))
        (readAt useDates "additionalProperties" (relabelledEntries f entries)) =
      (objectType entries (fun required => readPropertiesAt useDates required entries)
        (readAt useDates "additionalProperties" entries)).map (TypeExpr.relabel f) := by
  rw [objectType_eq, objectType_eq, declaredMembers_relabelled children,
    otherMembers_relabelled children]
  cases declaredMembers entries fun required => readPropertiesAt useDates required entries with
  | error failure => rfl
  | ok members =>
      cases otherMembers entries (readAt useDates "additionalProperties" entries) with
      | error failure => rfl
      | ok others =>
          have same := TypeExpr.relabelMembers_eq f (members ++ others)
          rw [List.map_append] at same
          refine congrArg Except.ok ?_
          rw [TypeExpr.relabel, same]

theorem typeNamed_relabelled (name : Value) :
    typeNamed useDates (relabelledEntries f entries)
        ((readAt useDates "items" (relabelledEntries f entries)).map .array)
        (objectType (relabelledEntries f entries)
          (fun required => readPropertiesAt useDates required (relabelledEntries f entries))
          (readAt useDates "additionalProperties" (relabelledEntries f entries))) name =
      (typeNamed useDates entries ((readAt useDates "items" entries).map .array)
        (objectType entries (fun required => readPropertiesAt useDates required entries)
          (readAt useDates "additionalProperties" entries)) name).map (TypeExpr.relabel f) := by
  have array : (readAt useDates "items" (relabelledEntries f entries)).map TypeExpr.array =
      ((readAt useDates "items" entries).map .array).map (TypeExpr.relabel f) := by
    rw [readAt_relabelled children (by decide)]
    cases readAt useDates "items" entries with
    | error failure => rfl
    | ok e => exact congrArg Except.ok (by rw [TypeExpr.relabel])
  have string (format : Option Value) :
      stringType useDates format = (stringType useDates format).map (TypeExpr.relabel f) := by
    unfold stringType
    repeat' split
    all_goals rfl
  rw [array, objectType_relabelled children]
  unfold typeNamed
  rw [has_relabelledEntries, get?_of_other f (by decide) (by decide) (Or.inr (by decide))]
  dsimp only
  repeat' split
  all_goals first
    | rfl
    | exact string _

/-- Each rule leads from relabelled parts to a relabelled type. -/
theorem readBy_relabelled (rule : Rule) :
    readBy useDates (relabelledEntries f entries) rule =
      (readBy useDates entries rule).map (TypeExpr.relabel f) := by
  have gathers {es : Attempt (List TypeExpr)} {g : List TypeExpr → TypeExpr}
      (relabel : ∀ es, (g es).relabel f = g (es.map (TypeExpr.relabel f))) :
      (es.map (List.map (TypeExpr.relabel f))).map g = (es.map g).map (TypeExpr.relabel f) := by
    cases es with
    | error failure => rfl
    | ok es => exact congrArg Except.ok (relabel es).symm
  have union (es : List TypeExpr) :
      (TypeExpr.union es).relabel f = .union (es.map (TypeExpr.relabel f)) := by
    rw [TypeExpr.relabel, TypeExpr.relabelList_eq]
  have choice (es : List TypeExpr) :
      (TypeExpr.choice es).relabel f = .choice (es.map (TypeExpr.relabel f)) := by
    rw [TypeExpr.relabel, TypeExpr.relabelList_eq]
  have intersection (es : List TypeExpr) :
      (TypeExpr.intersection es).relabel f = .intersection (es.map (TypeExpr.relabel f)) := by
    rw [TypeExpr.relabel, TypeExpr.relabelList_eq]
  cases rule with
  | reference =>
      rw [readBy, readBy, get?_of_other f (by decide) (by decide) (Or.inl rfl)]
      unfold ofReference
      split
      · split
        · rw [Except.map, TypeExpr.relabel]
        · rfl
      · rfl
  | name => rw [readBy, readBy, nameOf?_relabelledEntries, Except.map, TypeExpr.relabel]
  | oneOf =>
      rw [readBy, readBy, readMembersAt_relabelled children .oneOf rfl, gathers union]
  | anyOf =>
      rw [readBy, readBy, readMembersAt_relabelled children .anyOf rfl, gathers union]
  | allOf =>
      rw [readBy, readBy, readMembersAt_relabelled children .allOf rfl, gathers intersection]
  | enum =>
      have under : relabelledUnder f "enum" = relabelledElements f := rfl
      have elements : (Entries.get? "enum" (relabelledEntries f entries)).getD .null =
          relabelledElements f ((Entries.get? "enum" entries).getD .null) := by
        rw [get?_relabelledEntries, under]
        cases Entries.get? "enum" entries <;> rfl
      rw [readBy, readBy, elements, literals_relabelledElements, gathers choice]
  | const =>
      have under : relabelledUnder f "const" = Value.relabel f := rfl
      have value : (Entries.get? "const" (relabelledEntries f entries)).getD .null =
          ((Entries.get? "const" entries).getD .null).relabel f := by
        rw [get?_relabelledEntries, under]
        cases Entries.get? "const" entries <;> rfl
      rw [readBy, readBy, value, literal_relabel]
  | type =>
      rw [readBy, readBy, get?_of_other f (by decide) (by decide) (Or.inr (by decide))]
      split
      · rw [Attempt.mapM_eq_map fun name _ => typeNamed_relabelled children name, gathers choice]
      · exact typeNamed_relabelled children _

end Reading

/-- **A schema with other literals is read as its type with other literals**, and fails as it
does. -/
theorem read_relabelled (useDates inlineNamed : Bool) (schema : Value) :
    read useDates inlineNamed (relabelled f schema) =
      (read useDates inlineNamed schema).map (TypeExpr.relabel f) := by
  induction schema using children_induction generalizing inlineNamed with
  | atom a => simp only [relabelled, relabelledAt, read, Except.map, TypeExpr.relabel]
  | list items => simp only [relabelled, relabelledAt, read, Except.map, TypeExpr.relabel]
  | map entries ih =>
      by_cases empty : entries = []
      · subst empty
        simp only [relabelled, relabelledAt, relabelledEntries, read, List.isEmpty_nil, if_true,
          Except.map, TypeExpr.relabel]
      · have filled : relabelledEntries f entries ≠ [] := by
          cases entries with
          | nil => exact absurd rfl empty
          | cons entry rest => simp [relabelledEntries]
        rw [relabelled, relabelledAt, read_map_eq useDates inlineNamed filled,
          read_map_eq useDates inlineNamed empty, ruleFor_relabelledEntries,
          readBy_relabelled fun v child => ih v child false]
        cases readBy useDates entries (ruleFor inlineNamed entries) with
        | error failure => rfl
        | ok e => exact congrArg Except.ok (withNull_relabelledEntries f e)

end Schema

end ClientForge
