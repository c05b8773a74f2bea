/-
# ClientForge.Proofs.Types.Traversal -- the nodes that give their names to a type

Reading a schema goes through it by its rules: from a union to its members, from an array to its
items, from an object to its properties (`Leads`).  It stops at a reference that was left in
place and at a schema with a name of its own, and these are the nodes that are written by name
(`EmitsName`); the name at the top is passed over where it is to be read what it stands for.

A type holds the names of these nodes and no others (`mem_names_iff`), whether or not the node
can be seen in the text: members that are written alike are still read one by one.  Such a node
stands in the schema and has the name as its own or refers to it, so the names in a type come
from its schema (`read_names`), wherever in the schema that may be (`NamedIn`).
-/
import ClientForge.Proofs.Types.Refusals

namespace ClientForge.Schema

set_option autoImplicit false

/-! ## Nodes -/

/-- Reading the map by its rule leads to a schema in it. -/
inductive Leads (inlineNamed : Bool) (entries : Entries) : Value → Prop
  | member {key : String} {c : Connective} {items : List Value} {item : Value} :
      (ruleFor inlineNamed entries).joins? = some (key, c) →
      Entries.get? key entries = some (.list items) → item ∈ items →
      Leads inlineNamed entries item
  | item {v : Value} : ruleFor inlineNamed entries = .type → .str "array" ∈ typesOf entries →
      Entries.get? "items" entries = some v → Leads inlineNamed entries v
  | property {name : Value} {properties : Entries} {entry : Scalar × Value} :
      ruleFor inlineNamed entries = .type → name ∈ typesOf entries → IsObjectName entries name →
      Entries.get? "properties" entries = some (.map properties) → entry ∈ properties →
      Leads inlineNamed entries entry.2
  | additional {name v : Value} : ruleFor inlineNamed entries = .type → name ∈ typesOf entries →
      IsObjectName entries name → Entries.get? "additionalProperties" entries = some v →
      Leads inlineNamed entries v

/-- Reading the schema comes to a node that is written by this name. -/
inductive EmitsName : Bool → Value → String → Prop
  | reference {inlineNamed : Bool} {entries : Entries} {name : String} :
      Entries.get? "$ref" entries = some (.str (schemaReference name)) →
      EmitsName inlineNamed (.map entries) name
  | tag {entries : Entries} {name : String} : ruleFor false entries = .name →
      nameOf? entries = some name → EmitsName false (.map entries) name
  | inside {inlineNamed : Bool} {entries : Entries} {v : Value} {name : String} :
      Leads inlineNamed entries v → EmitsName false v name →
      EmitsName inlineNamed (.map entries) name

/-- A map in the value goes by the name, or is a reference that was left in place and stands
for the schema of the name. -/
def NamedIn (v : Value) (name : String) : Prop :=
  ∃ entries : Entries, (Value.map entries).PartOf v ∧
    (Entries.get? "$ref" entries = some (.str (schemaReference name)) ∨
      Entries.get? schemaNameKey entries = some (.str name))

theorem NamedIn.whole {v w : Value} {name : String} (named : NamedIn v name) (part : v.PartOf w) :
    NamedIn w name := by
  obtain ⟨entries, inner, marked⟩ := named
  exact ⟨entries, inner.trans part, marked⟩

theorem nameOf?_eq_some {entries : Entries} {name : String} (known : nameOf? entries = some name) :
    Entries.get? schemaNameKey entries = some (.str name) := by
  unfold nameOf? at known
  split at known
  · rename_i text found
    split at known
    · cases known
    · cases known
      exact found
  · cases known

section Nodes

variable {inlineNamed : Bool} {entries : Entries}

theorem leads_joined {key : String} {c : Connective}
    (joins : (ruleFor inlineNamed entries).joins? = some (key, c)) (v : Value) :
    Leads inlineNamed entries v ↔
      ∃ items, Entries.get? key entries = some (.list items) ∧ v ∈ items := by
  constructor
  · intro leads
    cases leads with
    | member joins' found among =>
        rw [joins] at joins'
        cases joins'
        exact ⟨_, found, among⟩
    | item rule => rw [rule] at joins; cases joins
    | property rule => rw [rule] at joins; cases joins
    | additional rule => rw [rule] at joins; cases joins
  · rintro ⟨items, found, among⟩
    exact .member joins found among

/-- What a schema of a type leads to under one of its type names. -/
def LeadsUnder (entries : Entries) (name v : Value) : Prop :=
  name = .str "array" ∧ Entries.get? "items" entries = some v ∨
    IsObjectName entries name ∧
      ((∃ properties, Entries.get? "properties" entries = some (.map properties) ∧
        ∃ entry ∈ properties, v = entry.2) ∨
      Entries.get? "additionalProperties" entries = some v)

theorem leads_type (rule : ruleFor inlineNamed entries = .type) (v : Value) :
    Leads inlineNamed entries v ↔ ∃ name ∈ typesOf entries, LeadsUnder entries name v := by
  constructor
  · intro leads
    cases leads with
    | member joins => rw [rule] at joins; cases joins
    | item _ among found => exact ⟨_, among, Or.inl ⟨rfl, found⟩⟩
    | property _ among isObject found inside =>
        exact ⟨_, among, Or.inr ⟨isObject, Or.inl ⟨_, found, _, inside, rfl⟩⟩⟩
    | additional _ among isObject found => exact ⟨_, among, Or.inr ⟨isObject, Or.inr found⟩⟩
  · rintro ⟨name, among, ⟨rfl, found⟩ | ⟨isObject, members⟩⟩
    · exact .item rule among found
    · rcases members with ⟨properties, found, entry, inside, rfl⟩ | found
      · exact .property rule among isObject found inside
      · exact .additional rule among isObject found

theorem not_leads (noJoin : (ruleFor inlineNamed entries).joins? = none)
    (noType : ruleFor inlineNamed entries ≠ .type) (v : Value) : ¬ Leads inlineNamed entries v := by
  intro leads
  cases leads with
  | member joins => rw [noJoin] at joins; cases joins
  | item rule => exact noType rule
  | property rule => exact noType rule
  | additional rule => exact noType rule

/-- A map is written by name only where a reference stands, or where its own name decides. -/
theorem emitsName_inside (noReference : ruleFor inlineNamed entries ≠ .reference)
    (noName : ruleFor inlineNamed entries ≠ .name) (name : String) :
    EmitsName inlineNamed (.map entries) name ↔
      ∃ v, Leads inlineNamed entries v ∧ EmitsName false v name := by
  constructor
  · intro emits
    cases emits with
    | reference found => exact absurd (ruleFor_of_reference found) noReference
    | tag rule => exact absurd rule noName
    | inside leads emits => exact ⟨_, leads, emits⟩
  · rintro ⟨v, leads, emits⟩
    exact .inside leads emits

theorem Leads.partOf {v : Value} (leads : Leads inlineNamed entries v) :
    v.PartOf (.map entries) := by
  cases leads with
  | member _ found among => exact Value.PartOf.trans (.item among .refl) (.of_get? found)
  | item _ _ found => exact .of_get? found
  | property _ _ _ found inside => exact Value.PartOf.trans (.entry inside .refl) (.of_get? found)
  | additional _ _ _ found => exact .of_get? found

/-- What is written by name goes by the name, or refers to it. -/
theorem EmitsName.namedIn {v : Value} {name : String} (emits : EmitsName inlineNamed v name) :
    NamedIn v name := by
  induction emits with
  | reference found => exact ⟨_, .refl, Or.inl found⟩
  | tag _ known => exact ⟨_, .refl, Or.inr (nameOf?_eq_some known)⟩
  | inside leads _ named => exact named.whole leads.partOf

/-- Only a map with something in it is written by name or leads on. -/
theorem EmitsName.filled {v : Value} {name : String} (emits : EmitsName inlineNamed v name) :
    ∃ entry rest, v = .map (entry :: rest) := by
  have some : ∀ {entries : Entries} {key : String} {w : Value},
      Entries.get? key entries = some w →
        ∃ entry rest, Value.map entries = .map (entry :: rest) := by
    intro entries key w found
    cases entries with
    | nil => cases found
    | cons entry rest => exact ⟨entry, rest, rfl⟩
  cases emits with
  | reference found => exact some found
  | @tag entries _ _ known =>
      cases entries with
      | nil => cases known
      | cons entry rest => exact ⟨entry, rest, rfl⟩
  | inside leads _ =>
      cases leads with
      | member _ found _ => exact some found
      | item _ _ found => exact some found
      | property _ _ _ found _ => exact some found
      | additional _ _ _ found => exact some found

end Nodes

/-! ## Names of what is read -/

theorem names_withNull (entries : Entries) (e : TypeExpr) :
    (withNull entries e).names = e.names := by
  unfold withNull
  split
  · rfl
  · rfl

/-- The names in a result are those that satisfy `P`. -/
def Yields {α : Type} (names : α → List String) (P : String → Prop) (x : Attempt α) : Prop :=
  ∀ a, x = .ok a → ∀ name, name ∈ names a ↔ P name

namespace Yields

variable {α β : Type} {names : α → List String} {names' : β → List String} {P Q : String → Prop}

theorem ok {a : α} (exactly : ∀ name, name ∈ names a ↔ P name) : Yields names P (.ok a) := by
  rintro _ ⟨⟩
  exact exactly

theorem error (failure : Failure) : Yields names P (.error failure) := by
  intro a run
  cases run

theorem congr {x : Attempt α} (yields : Yields names P x) (same : ∀ name, P name ↔ Q name) :
    Yields names Q x :=
  fun a run name => (yields a run name).trans (same name)

theorem map {x : Attempt α} {f : α → β} (yields : Yields names P x)
    (keeps : ∀ a, names' (f a) = names a) : Yields names' P (x.map f) := by
  intro b run name
  obtain ⟨a, first, rfl⟩ := Attempt.map_eq_ok run
  rw [keeps]
  exact yields a first name

/-- What is read item by item has the names of all items. -/
theorem mapM {P : α → String → Prop} {f : α → Attempt β} {xs : List α}
    (each : ∀ x ∈ xs, Yields names' (P x) (f x)) :
    Yields (List.flatMap names') (fun name => ∃ x ∈ xs, P x name) (xs.mapM f) := by
  induction xs with
  | nil =>
      rintro _ ⟨⟩ name
      simp
  | cons x rest ih =>
      obtain ⟨here, later⟩ := List.forall_mem_cons.mp each
      intro ys run name
      rw [List.mapM_cons] at run
      obtain ⟨y, first, run⟩ := Attempt.bind_eq_ok run
      obtain ⟨ys, others, run⟩ := Attempt.bind_eq_ok run
      cases run
      rw [List.flatMap_cons, List.mem_append, here y first name, ih later ys others name]
      exact (List.exists_mem_cons_iff (P · name) x rest).symm

end Yields

theorem namesOfList_eq (es : List TypeExpr) :
    TypeExpr.namesOfList es = es.flatMap TypeExpr.names := by
  induction es with
  | nil => rfl
  | cons e rest ih => rw [TypeExpr.namesOfList, ih, List.flatMap_cons]

/-- The names in the members of an object type. -/
def memberNames (member : MemberKey × TypeExpr) : List String := member.2.names

theorem namesOfMembers_eq (members : List (MemberKey × TypeExpr)) :
    TypeExpr.namesOfMembers members = members.flatMap memberNames := by
  induction members with
  | nil => rfl
  | cons member rest ih =>
      obtain ⟨key, e⟩ := member
      rw [TypeExpr.namesOfMembers, ih, List.flatMap_cons]
      rfl

/-! ## Parts of the reader -/

section Parts

variable {useDates : Bool} {entries : Entries}

/-- What the schemas that stand in the map are read as. -/
def YieldsChildren (useDates : Bool) (entries : Entries) : Prop :=
  ∀ v, Child entries v → Yields TypeExpr.names (EmitsName false v) (read useDates false v)

theorem literal_yields (v : Value) :
    Yields TypeExpr.names (fun _ => False) (literals.literal v) := by
  unfold literals.literal
  split
  · exact .ok (by simp [TypeExpr.names])
  · exact .error _

theorem literals_yields (v : Value) :
    Yields (List.flatMap TypeExpr.names) (fun _ => False) (literals v) := by
  unfold literals
  split
  · exact .error _
  · exact (Yields.mapM fun item _ => literal_yields item).congr (by simp)

theorem stringType_yields (useDates : Bool) (format : Option Value) :
    Yields TypeExpr.names (fun _ => False) (stringType useDates format) := by
  unfold stringType
  repeat' split
  all_goals first
    | exact .ok (by simp [TypeExpr.names])
    | exact .error _

theorem readAt_yields {key : String} (schemaKey : key ∈ ["items", "additionalProperties"])
    (children : YieldsChildren useDates entries) :
    Yields TypeExpr.names (fun name => ∃ v, Entries.get? key entries = some v ∧
      EmitsName false v name) (readAt useDates key entries) := by
  rw [readAt_eq]
  cases found : Entries.get? key entries with
  | none => exact .ok (by simp [TypeExpr.names])
  | some v => exact (children v (.under schemaKey found)).congr (by simp)

theorem readMembersAt_yields {rule : Rule} {key : String} {c : Connective}
    (joins : rule.joins? = some (key, c)) (children : YieldsChildren useDates entries) :
    Yields (List.flatMap TypeExpr.names) (fun name => ∃ items,
      Entries.get? key entries = some (.list items) ∧ ∃ item ∈ items, EmitsName false item name)
      (readMembersAt useDates key entries) := by
  rw [readMembersAt_eq]
  cases found : Entries.get? key entries with
  | none => exact .ok (by simp)
  | some v =>
      show Yields _ _ (readMembers useDates v)
      unfold readMembers
      split
      · rename_i items
        rw [readItems_eq]
        have each := Yields.mapM fun item member =>
          children item (.item joins found (rfl : (Value.list items).elements? = _) member)
        exact each.congr (by simp)
      · rename_i noList
        have nothing : ∀ items, v ≠ .list items := fun items same => noList items same
        split
        · exact .ok (by simp [TypeExpr.names, nothing])
        · exact .error _

theorem readProperties_yields (required : List String) {properties : Entries}
    (each : ∀ entry ∈ properties,
      Yields TypeExpr.names (EmitsName false entry.2) (read useDates false entry.2)) :
    Yields (List.flatMap memberNames) (fun name => ∃ entry ∈ properties,
      EmitsName false entry.2 name) (readProperties useDates required properties) := by
  induction properties with
  | nil => exact .ok (by simp)
  | cons entry rest ih =>
      obtain ⟨k, v⟩ := entry
      obtain ⟨here, later⟩ := List.forall_mem_cons.mp each
      cases k with
      | str key =>
          intro members run name
          rw [readProperties] at run
          obtain ⟨e, first, run⟩ := Attempt.bind_eq_ok run
          obtain ⟨others, second, run⟩ := Attempt.bind_eq_ok run
          cases run
          rw [List.flatMap_cons, List.mem_append, memberNames, here e first name,
            ih later others second name]
          exact (List.exists_mem_cons_iff (fun entry => EmitsName false entry.2 name) _ rest).symm
      | _ => exact .error _

/-- The members for the declared properties have the names of their schemas. -/
theorem declaredMembers_yields (children : YieldsChildren useDates entries) :
    Yields (List.flatMap memberNames) (fun name => ∃ properties,
      Entries.get? "properties" entries = some (.map properties) ∧
        ∃ entry ∈ properties, EmitsName false entry.2 name)
      (declaredMembers entries fun required => readPropertiesAt useDates required entries) := by
  unfold declaredMembers
  split
  · intro members run
    obtain ⟨required, -, run⟩ := Attempt.bind_eq_ok run
    rw [readPropertiesAt_eq] at run
    cases found : Entries.get? "properties" entries with
    | none =>
        rw [found] at run
        cases run
        simp
    | some v =>
        rw [found] at run
        cases v with
        | map properties =>
            have each : ∀ entry ∈ properties,
                Yields TypeExpr.names (EmitsName false entry.2) (read useDates false entry.2) :=
              fun entry member => children entry.2 (.property found member)
            exact (readProperties_yields required each).congr (by simp) members run
        | atom a => cases run
        | list items => cases run
  · rename_i absent
    have nothing : ∀ properties, Entries.get? "properties" entries = some (.map properties) →
        properties = [] := by
      intro properties found
      simpa [Entries.given, found, Value.truthy] using absent
    refine .ok fun name => iff_of_false List.not_mem_nil ?_
    rintro ⟨properties, found, entry, member, -⟩
    rw [nothing properties found] at member
    cases member

/-- The member for all other properties has the names of its schema. -/
theorem otherMembers_yields (children : YieldsChildren useDates entries) :
    Yields (List.flatMap memberNames) (fun name => ∃ v,
      Entries.get? "additionalProperties" entries = some v ∧ EmitsName false v name)
      (otherMembers entries (readAt useDates "additionalProperties" entries)) := by
  have noSchema {members : List (MemberKey × TypeExpr)} (none : members.flatMap memberNames = [])
      (empty : ∀ entry rest,
        Entries.get? "additionalProperties" entries ≠ some (.map (entry :: rest))) :
      Yields (List.flatMap memberNames) (fun name => ∃ v,
        Entries.get? "additionalProperties" entries = some v ∧ EmitsName false v name)
        (.ok members) := by
    refine .ok fun name => ?_
    rw [none]
    refine iff_of_false List.not_mem_nil ?_
    rintro ⟨v, found, emits⟩
    obtain ⟨entry, rest, rfl⟩ := emits.filled
    exact empty entry rest found
  unfold otherMembers
  split
  · exact (readAt_yields (by decide) children).map fun e => by simp [memberNames]
  · rename_i found
    exact noSchema rfl fun entry rest same => by rw [found] at same; cases same
  · rename_i noMap _
    refine noSchema ?_ noMap
    split
    · rfl
    · rfl

/-- The type that stands under a type name has the names of what it leads to. -/
theorem typeNamed_yields (children : YieldsChildren useDates entries) (name : Value) :
    Yields TypeExpr.names (fun n => ∃ v, LeadsUnder entries name v ∧ EmitsName false v n)
      (typeNamed useDates entries ((readAt useDates "items" entries).map .array)
        (objectType entries (fun required => readPropertiesAt useDates required entries)
          (readAt useDates "additionalProperties" entries)) name) := by
  have array : Yields TypeExpr.names (fun n => ∃ v, Entries.get? "items" entries = some v ∧
      EmitsName false v n) ((readAt useDates "items" entries).map .array) :=
    (readAt_yields (by decide) children).map fun e => rfl
  have object (isObject : IsObjectName entries name) :
      Yields TypeExpr.names (fun n => ∃ v, LeadsUnder entries name v ∧ EmitsName false v n)
        (objectType entries (fun required => readPropertiesAt useDates required entries)
          (readAt useDates "additionalProperties" entries)) := by
    intro e run n
    rw [objectType_eq] at run
    obtain ⟨declared, first, run⟩ := Attempt.bind_eq_ok run
    obtain ⟨others, second, run⟩ := Attempt.bind_eq_ok run
    cases run
    rw [TypeExpr.names, namesOfMembers_eq, List.flatMap_append, List.mem_append,
      declaredMembers_yields children declared first n,
      otherMembers_yields children others second n]
    constructor
    · rintro (⟨properties, found, entry, member, emits⟩ | ⟨v, found, emits⟩)
      · exact ⟨_, Or.inr ⟨isObject, Or.inl ⟨properties, found, entry, member, rfl⟩⟩, emits⟩
      · exact ⟨v, Or.inr ⟨isObject, Or.inr found⟩, emits⟩
    · rintro ⟨v, ⟨isArray, -⟩ | ⟨-, ⟨properties, found, entry, member, rfl⟩ | found⟩, emits⟩
      · exact absurd isArray isObject.ne_array
      · exact Or.inl ⟨properties, found, entry, member, emits⟩
      · exact Or.inr ⟨v, found, emits⟩
  have nowhere {name : Value} {x : Attempt TypeExpr}
      (none : Yields TypeExpr.names (fun _ => False) x)
      (apart : name ≠ .str "array" ∧ ¬ IsObjectName entries name) :
      Yields TypeExpr.names (fun n => ∃ v, LeadsUnder entries name v ∧ EmitsName false v n) x :=
    none.congr fun n => by simp [LeadsUnder, apart.1, apart.2]
  generalize (readAt useDates "items" entries).map TypeExpr.array = x at array ⊢
  generalize objectType entries (fun required => readPropertiesAt useDates required entries)
    (readAt useDates "additionalProperties" entries) = y at object ⊢
  generalize run : typeNamed useDates entries x y name = z
  cases readUnder_of_typeNamed run with
  | string =>
      exact nowhere (stringType_yields useDates _) (not_isObjectName_of_leaf List.mem_cons_self)
  | primitive scalar =>
      exact nowhere (.ok (by simp [TypeExpr.names])) (not_isObjectName_of_leaf
        (List.mem_cons_of_mem _ (List.mem_map_of_mem scalar)))
  | array => exact array.congr fun n => by simp [LeadsUnder, IsObjectName, typeNames]
  | object isObject => exact object isObject
  | unknown meansNothing absent =>
      exact nowhere (.ok (by simp [TypeExpr.names]))
        (not_isObjectName_of_unknown meansNothing absent)
  | compound => exact .error _

/-- A reference that was left in place is written by the name in it. -/
theorem reference_yields {inlineNamed : Bool} {reference : Value}
    (found : Entries.get? "$ref" entries = some reference) :
    Yields TypeExpr.names (EmitsName inlineNamed (.map entries)) (ofReference reference) := by
  have rule : ∀ inlineNamed, ruleFor inlineNamed entries = .reference :=
    fun _ => ruleFor_of_reference found
  intro e run name
  unfold ofReference at run
  split at run
  · rename_i text
    split at run
    · rename_i schema
      cases run
      obtain ⟨own, rfl⟩ := (isSchemaReference_iff text).mp schema
      rw [drop_schemaReference, TypeExpr.names, List.mem_singleton]
      constructor
      · rintro rfl
        exact .reference found
      · intro emits
        cases emits with
        | reference found' =>
            have same := Option.some.inj (found'.symm.trans found)
            exact schemaReference_injective (Scalar.str.inj (Value.atom.inj same))
        | tag rule' => rw [rule] at rule'; cases rule'
        | inside leads _ =>
            exact absurd leads (not_leads (by rw [rule]; rfl) (by rw [rule]; decide) _)
    · cases run
  · cases run

/-- A schema with a name of its own is written by it. -/
theorem tag_yields {own : String} (decides : ruleFor false entries = .name)
    (known : nameOf? entries = some own) :
    Yields TypeExpr.names (EmitsName false (.map entries)) (.ok (.named own)) := by
  refine .ok fun name => ?_
  rw [TypeExpr.names, List.mem_singleton]
  constructor
  · rintro rfl
    exact .tag decides known
  · intro emits
    cases emits with
    | reference found => rw [ruleFor_of_reference found] at decides; cases decides
    | tag _ known' => exact Option.some.inj (known'.symm.trans known)
    | inside leads _ =>
        exact absurd leads (not_leads (by rw [decides]; rfl) (by rw [decides]; decide) _)

/-- A map is read with the names of what its rule leads to, and with its own where that decides. -/
theorem readBy_yields {inlineNamed : Bool} (children : YieldsChildren useDates entries) :
    Yields TypeExpr.names (EmitsName inlineNamed (.map entries))
      (readBy useDates entries (ruleFor inlineNamed entries)) := by
  have joined {key : String} {c : Connective} {f : List TypeExpr → TypeExpr}
      (joins : (ruleFor inlineNamed entries).joins? = some (key, c))
      (keeps : ∀ es, (f es).names = TypeExpr.namesOfList es) :
      Yields TypeExpr.names (EmitsName inlineNamed (.map entries))
        ((readMembersAt useDates key entries).map f) := by
    have names : Yields TypeExpr.names _ ((readMembersAt useDates key entries).map f) :=
      (readMembersAt_yields joins children).map fun es => by rw [keeps, namesOfList_eq]
    refine names.congr fun name => ?_
    rw [emitsName_inside (by rintro same; rw [same] at joins; cases joins)
      (by rintro same; rw [same] at joins; cases joins)]
    simp only [leads_joined joins]
    constructor
    · rintro ⟨items, found, item, among, emits⟩
      exact ⟨item, ⟨items, found, among⟩, emits⟩
    · rintro ⟨item, ⟨items, found, among⟩, emits⟩
      exact ⟨items, found, item, among, emits⟩
  have leaf {rule : Rule} {x : Attempt TypeExpr} (decides : ruleFor inlineNamed entries = rule)
      (none : Yields TypeExpr.names (fun _ => False) x) (noJoin : rule.joins? = .none)
      (others : rule ∉ [Rule.type, .reference, .name]) :
      Yields TypeExpr.names (EmitsName inlineNamed (.map entries)) x := by
    subst decides
    simp only [List.mem_cons, List.not_mem_nil, or_false, not_or] at others
    obtain ⟨noType, noReference, noName⟩ := others
    refine none.congr fun name => ?_
    rw [emitsName_inside noReference noName]
    simp [not_leads noJoin noType]
  have applies := ruleFor_applies (rfl : ruleFor inlineNamed entries = _)
  cases decides : ruleFor inlineNamed entries with
  | reference =>
      rw [decides] at applies
      obtain ⟨v, found⟩ := Option.isSome_iff_exists.mp applies
      rw [readBy, found, Option.getD_some]
      exact reference_yields found
  | name =>
      rw [decides] at applies
      obtain ⟨rfl, known⟩ := applies
      obtain ⟨own, known⟩ := Option.isSome_iff_exists.mp known
      rw [readBy, known, Option.getD_some]
      exact tag_yields decides known
  | oneOf => exact joined (by rw [decides]; rfl) fun es => rfl
  | anyOf => exact joined (by rw [decides]; rfl) fun es => rfl
  | allOf => exact joined (by rw [decides]; rfl) fun es => rfl
  | enum =>
      have none : Yields TypeExpr.names (fun _ => False) (readBy useDates entries .enum) :=
        (literals_yields _).map namesOfList_eq
      exact leaf decides none rfl (by decide)
  | const => exact leaf decides (literal_yields _) rfl (by decide)
  | type =>
      have inside : ∀ name, (∃ n ∈ typesOf entries, ∃ v, LeadsUnder entries n v ∧
          EmitsName false v name) ↔ EmitsName inlineNamed (.map entries) name := by
        intro name
        rw [emitsName_inside (by rw [decides]; decide) (by rw [decides]; decide)]
        simp only [leads_type decides]
        constructor
        · rintro ⟨n, among, v, leads, emits⟩
          exact ⟨v, ⟨n, among, leads⟩, emits⟩
        · rintro ⟨v, ⟨n, among, leads⟩, emits⟩
          exact ⟨n, among, v, leads, emits⟩
      rcases readBy_type useDates entries with run | ⟨n, only, run⟩
      · rw [run]
        have each := Yields.mapM fun n (_ : n ∈ typesOf entries) => typeNamed_yields children n
        have choice : Yields TypeExpr.names _ (Except.map TypeExpr.choice _) :=
          each.map namesOfList_eq
        exact choice.congr inside
      · rw [run]
        refine (typeNamed_yields children n).congr fun name => ?_
        rw [← inside, only]
        simp

end Parts

/-- **A type holds the names of the nodes that are written by name, and no others.** -/
theorem mem_names_iff {useDates inlineNamed : Bool} {v : Value} {e : TypeExpr}
    (run : read useDates inlineNamed v = .ok e) (name : String) :
    name ∈ e.names ↔ EmitsName inlineNamed v name := by
  suffices ∀ inlineNamed, Yields TypeExpr.names (EmitsName inlineNamed v)
      (read useDates inlineNamed v) from this inlineNamed e run name
  clear run
  induction v using children_induction with
  | atom a =>
      intro inlineNamed
      refine .ok fun name => iff_of_false List.not_mem_nil fun emits => ?_
      cases emits
  | list items =>
      intro inlineNamed
      refine .ok fun name => iff_of_false List.not_mem_nil fun emits => ?_
      cases emits
  | map entries ih =>
      intro inlineNamed
      by_cases empty : entries = []
      · subst empty
        refine .ok fun name => iff_of_false List.not_mem_nil fun emits => ?_
        obtain ⟨entry, rest, same⟩ := emits.filled
        cases same
      · rw [read_map_eq useDates inlineNamed empty]
        exact (readBy_yields fun v child => ih v child false).map (names_withNull entries)

/-- The names in a type come from its schema. -/
theorem read_names {useDates inlineNamed : Bool} {v : Value} {e : TypeExpr}
    (run : read useDates inlineNamed v = .ok e) : ∀ name ∈ e.names, NamedIn v name :=
  fun name member => ((mem_names_iff run name).mp member).namedIn

end ClientForge.Schema
