/-
# ClientForge.Proofs.Models.Spelling -- interfaces as a spelling of types

A component schema has a type, the one that an alias would be written with, and some schemas
are declared as an interface instead.  Whether both are one type is a question about values:
in a structural interpretation an object has to meet one requirement for each of its members
(`Structural`), so an intersection of object types is the object type of all their members.

An interface for an object with properties has the members of the type itself.  One that is put
together from the members of an `allOf` agrees with their intersection if each of them is an
object with its properties and nothing else, if they agree about a property that several of
them declare, and if what one of them requires is required where it is declared
(`Schema.Mergeable`).  Both are looked at before the keys that decide about the type, so the
schema has to be one that these keys decide about (`Model.OnlySpelled`); what happens otherwise
is shown by an `allOf` that may be null (`ofSchema_drops_null`).
-/
import ClientForge.Proofs.Contract.Slots
import ClientForge.Proofs.Models.File
import ClientForge.Proofs.Types.Description

namespace ClientForge

set_option autoImplicit false

open TypeTree (Interpretation Same)

/-! ## Types as values -/

section Values

variable {α : Type}

/-- An object meets a requirement for each member, in any order; that a property is there with a
value is more than that it has such a value if it is there. -/
def TypeTree.Interpretation.Structural (I : Interpretation α) : Prop :=
  ∃ (base : Set α) (meeting : TreeKey → Set α → Set α),
    (∀ members, I.object members = {x | x ∈ base ∧ ∀ m ∈ members, x ∈ meeting m.1 m.2}) ∧
    ∀ name values, meeting (.property name false) values ⊆ meeting (.property name true) values

/-- Two expressions have the same values in every structural interpretation. -/
def TypeExpr.Equivalent (e f : TypeExpr) : Prop :=
  ∀ (α : Type) (I : Interpretation α), I.Structural → I.values e.tree = I.values f.tree

/-- Whatever has the first member of an object type has the second. -/
def MemberKey.Covers (m n : MemberKey × TypeExpr) : Prop :=
  m.2 = n.2 ∧ (m.1 = n.1 ∨ ∃ name, m.1 = .property name false ∧ n.1 = .property name true)

namespace TypeExpr

theorem Equivalent.refl (e : TypeExpr) : e.Equivalent e := fun _ _ _ => rfl

theorem values_object (I : Interpretation α) (members : List (MemberKey × TypeExpr)) :
    I.values (TypeExpr.object members).tree =
      I.object (members.map fun m => (treeKey m.1, I.values m.2.tree)) := by
  rw [tree, Interpretation.values, Interpretation.valuesOfMembers_eq, memberTrees_eq, List.map_map]
  rfl

theorem values_intersection (I : Interpretation α) {es : List TypeExpr} (some : es ≠ []) :
    I.values (TypeExpr.intersection es).tree = {x | ∀ e ∈ es, x ∈ I.values e.tree} := by
  have members : trees es ≠ [] := by
    rw [trees_eq]
    simpa using some
  rw [tree, (Same.ofMembers members).values_eq I, Interpretation.values_joined, trees_eq,
    List.map_map]
  ext x
  simp [Connective.values]

/-- An object type is the intersection of object types with members that cover each other. -/
theorem equivalent_intersection {members : List (MemberKey × TypeExpr)}
    {groups : List (List (MemberKey × TypeExpr))} (some : groups ≠ [])
    (covered : ∀ n ∈ members, ∃ group ∈ groups, ∃ m ∈ group, MemberKey.Covers m n)
    (covering : ∀ group ∈ groups, ∀ n ∈ group, ∃ m ∈ members, MemberKey.Covers m n) :
    (TypeExpr.object members).Equivalent (.intersection (groups.map .object)) := by
  intro α I structural
  obtain ⟨base, meeting, meets, optional⟩ := structural
  have object (ms : List (MemberKey × TypeExpr)) : I.values (TypeExpr.object ms).tree =
      {x | x ∈ base ∧ ∀ m ∈ ms, x ∈ meeting (treeKey m.1) (I.values m.2.tree)} := by
    rw [values_object, meets]
    simp only [List.forall_mem_map]
  -- a member that is covered asks for nothing new
  have covers {m n : MemberKey × TypeExpr} (covers : MemberKey.Covers m n) {x : α}
      (met : x ∈ meeting (treeKey m.1) (I.values m.2.tree)) :
      x ∈ meeting (treeKey n.1) (I.values n.2.tree) := by
    obtain ⟨same, key | ⟨name, required, declared⟩⟩ := covers
    · rw [← same, ← key]
      exact met
    · rw [required] at met
      rw [← same, declared]
      exact optional _ _ met
  rw [values_intersection I (by simpa using some)]
  ext x
  simp only [List.forall_mem_map, object, Set.mem_ofPred_eq]
  constructor
  · rintro ⟨inside, met⟩ group member
    refine ⟨inside, fun n there => ?_⟩
    obtain ⟨m, here, stronger⟩ := covering group member n there
    exact covers stronger (met m here)
  · intro met
    obtain ⟨group, member⟩ := List.exists_mem_of_ne_nil groups some
    refine ⟨(met group member).1, fun n there => ?_⟩
    obtain ⟨group', member', m, here, stronger⟩ := covered n there
    exact covers stronger ((met group' member').2 m here)

end TypeExpr

end Values

/-! ## Object types -/

namespace Schema

variable {useDates : Bool} {entries properties : Entries} {required : List String}

/-- The schema declares a property with a schema. -/
def DeclaresProperty (entries : Entries) (name : String) (v : Value) : Prop :=
  ∃ properties, Entries.get? "properties" entries = some (.map properties) ∧
    (.str name, v) ∈ properties

/-- The member of an object type for a property. -/
def IsMember (useDates : Bool) (required : String → Bool) (entry : Scalar × Value)
    (m : MemberKey × TypeExpr) : Prop :=
  ∃ name e, entry.1 = .str name ∧ read useDates false entry.2 = .ok e ∧
    m = (.property name (!required name), e)

/-- The members of an object type for properties. -/
abbrev AreMembers (useDates : Bool) (required : String → Bool) (properties : Entries)
    (members : List (MemberKey × TypeExpr)) : Prop :=
  List.Forall₂ (IsMember useDates required) properties members

/-- The member of an object type for all other properties. -/
def IsIndex (useDates : Bool) (entries : Entries) (others : List (MemberKey × TypeExpr)) : Prop :=
  additional? entries = none ∧ others = [] ∨
    ∃ v e, additional? entries = some v ∧ read useDates false v = .ok e ∧ others = [(.index, e)]

theorem readProperties_eq_ok {members : List (MemberKey × TypeExpr)}
    (declared : AreMembers useDates required.contains properties members) :
    readProperties useDates required properties = .ok members := by
  induction declared with
  | nil => rfl
  | @cons entry m rest ms first _ ih =>
      obtain ⟨k, v⟩ := entry
      obtain ⟨name, e, rfl, type, rfl⟩ := first
      have type : read useDates false v = .ok e := type
      rw [readProperties, type, ih]
      rfl

theorem declaredMembers_eq_ok {members : List (MemberKey × TypeExpr)}
    (listed : requiredNames (Entries.get? "required" entries) = .ok required)
    (found : Entries.get? "properties" entries = some (.map properties))
    (declared : AreMembers useDates required.contains properties members) :
    declaredMembers entries (fun required => readPropertiesAt useDates required entries) =
      .ok members := by
  unfold declaredMembers
  split
  · rw [listed]
    show readPropertiesAt useDates required entries = .ok members
    rw [readPropertiesAt_eq, found]
    exact readProperties_eq_ok declared
  · rename_i absent
    have given : Entries.given "properties" entries = !properties.isEmpty := by
      rw [Entries.given, found]
      rfl
    rw [given, Bool.not_eq_true', Bool.not_eq_false, List.isEmpty_iff] at absent
    subst absent
    cases declared
    rfl

theorem otherMembers_eq_ok {others : List (MemberKey × TypeExpr)}
    (known : Entries.given "properties" entries = true ∨
      Entries.get? "additionalProperties" entries = some (.bool false))
    (index : IsIndex useDates entries others) :
    otherMembers entries (readAt useDates "additionalProperties" entries) = .ok others := by
  unfold otherMembers
  rcases index with ⟨none, rfl⟩ | ⟨v, e, further, type, rfl⟩
  · unfold additional? at none
    split
    · rename_i there
      rw [there] at none
      cases none
    · rfl
    · rename_i notFalse
      rcases known with given | closed
      · rw [if_pos given]
      · exact absurd closed notFalse
  · unfold additional? at further
    split at further
    · rename_i there
      cases further
      have read : readAt useDates "additionalProperties" entries = .ok e := by
        rw [readAt_eq, there]
        exact type
      rw [there, read]
      rfl
    · cases further

/-- The type of an object with properties. -/
theorem objectType_eq_ok {members others : List (MemberKey × TypeExpr)}
    (listed : requiredNames (Entries.get? "required" entries) = .ok required)
    (found : Entries.get? "properties" entries = some (.map properties))
    (known : Entries.given "properties" entries = true ∨
      Entries.get? "additionalProperties" entries = some (.bool false))
    (declared : AreMembers useDates required.contains properties members)
    (index : IsIndex useDates entries others) :
    objectType entries (fun required => readPropertiesAt useDates required entries)
      (readAt useDates "additionalProperties" entries) = .ok (.object (members ++ others)) := by
  rw [objectType_eq, declaredMembers_eq_ok listed found declared]
  dsimp only [bind, Except.bind]
  rw [otherMembers_eq_ok known index]

/-- A schema that is read by its type, as an object with properties. -/
theorem read_object {inlineNamed : Bool} {members others : List (MemberKey × TypeExpr)}
    (rule : ruleFor inlineNamed entries = .type)
    (notNull : Entries.given "nullable" entries = false)
    (type : ∀ v, Entries.get? "type" entries = some v → v = .null ∨ v = .str "object")
    (listed : requiredNames (Entries.get? "required" entries) = .ok required)
    (found : Entries.get? "properties" entries = some (.map properties))
    (known : Entries.given "properties" entries = true ∨
      Entries.get? "additionalProperties" entries = some (.bool false))
    (declared : AreMembers useDates required.contains properties members)
    (index : IsIndex useDates entries others) :
    read useDates inlineNamed (.map entries) = .ok (.object (members ++ others)) := by
  have filled : entries ≠ [] := by
    rintro rfl
    cases found
  have object := objectType_eq_ok listed found known declared index
  have has : Entries.has "properties" entries = true := by
    rw [Entries.has, found]
    rfl
  have same (e : TypeExpr) : withNull entries e = e := by
    unfold withNull
    exact if_neg (Bool.eq_false_iff.mp notNull)
  rw [read_map_eq useDates inlineNamed filled, rule]
  unfold readBy
  dsimp only
  cases given : Entries.get? "type" entries with
  | none =>
      dsimp only [Option.getD_none, typeNamed]
      rw [if_pos has, object]
      exact congrArg Except.ok (same _)
  | some v =>
      rcases type v given with rfl | rfl
      · dsimp only [Option.getD_some, typeNamed]
        rw [if_pos has, object]
        exact congrArg Except.ok (same _)
      · have typed : typeNamed useDates entries ((readAt useDates "items" entries).map .array)
            (.ok (.object (members ++ others))) (.str "object") =
              .ok (.object (members ++ others)) := by
          simp [typeNamed]
        dsimp only [Option.getD_some]
        rw [object, typed]
        exact congrArg Except.ok (same _)

/-- A schema of an object with its properties and nothing else. -/
structure OnlyProperties (entries : Entries) : Prop where
  rule : ruleFor false entries = .type
  notNull : Entries.given "nullable" entries = false
  closed : additional? entries = none
  known : Entries.given "properties" entries = true ∨
    Entries.get? "additionalProperties" entries = some (.bool false)
  required : ∀ v, Entries.get? "required" entries = some v → ∃ names, v = .list names

/-- Schemas of objects with their properties, which agree about each of them: about its schema,
and that it is required where it is declared if it is required at all. -/
structure Mergeable (members : List Value) : Prop where
  only : ∀ fields, .map fields ∈ members → OnlyProperties fields
  agree : ∀ fields fields' name v w, .map fields ∈ members → .map fields' ∈ members →
    DeclaresProperty fields name v → DeclaresProperty fields' name w → v = w
  required : ∀ fields fields' name v, .map fields ∈ members → .map fields' ∈ members →
    requires fields name = true → DeclaresProperty fields' name v →
    ∃ fields'' w, .map fields'' ∈ members ∧ requires fields'' name = true ∧
      DeclaresProperty fields'' name w

end Schema

namespace Model

open Schema

variable {useDates : Bool} {name : String} {entries properties : Entries} {model : Model}

/-- The type that a declaration declares, unless it is written already. -/
def type? : Model → Option TypeExpr
  | .interface _ members => some (.object members)
  | .alias _ type => some type
  | .declared _ => none

/-- An interface has the members of an object type. -/
theorem interfaceOf_members (run : interfaceOf useDates name entries = .ok model) :
    ∃ required properties members others,
      requiredNames (Entries.get? "required" entries) = .ok required ∧
      Api.mapAt "properties" entries = .ok properties ∧
      AreMembers useDates required.contains properties members ∧
      IsIndex useDates entries others ∧ model = .interface name (members ++ others) := by
  unfold interfaceOf at run
  obtain ⟨required, listed, run⟩ := Attempt.bind_eq_ok run
  obtain ⟨properties, found, run⟩ := Attempt.bind_eq_ok run
  obtain ⟨members, read, run⟩ := Attempt.bind_eq_ok run
  have declared : AreMembers useDates required.contains properties members := by
    refine (Attempt.mapM_eq_ok read).imp fun entry m step => ?_
    unfold Model.member at step
    obtain ⟨e, type, step⟩ := Attempt.bind_eq_ok step
    obtain ⟨text, key, step⟩ := Attempt.bind_eq_ok step
    cases step
    exact ⟨text, e, Value.atom.inj (Contract.textOf_eq_ok key), type, rfl⟩
  split at run
  · rename_i first rest further
    obtain ⟨others, type, run⟩ := Attempt.bind_eq_ok run
    cases run
    refine ⟨required, properties, members, _, listed, found, declared, ?_, rfl⟩
    exact Or.inr ⟨_, others, by rw [additional?, further], type, rfl⟩
  · rename_i noSchema
    cases run
    refine ⟨required, properties, members, [], listed, found, declared, Or.inl ⟨?_, rfl⟩, ?_⟩
    · unfold additional?
      split
      · rename_i further
        exact absurd further (noSchema _ _)
      · rfl
    · rw [List.append_nil]

/-! ## Plain objects -/

/-- An interface for an object with properties has the members of its type. -/
theorem plainObject_read (plain : isPlainObject entries = true)
    (rule : ruleFor true entries = .type)
    (run : interfaceOf useDates name entries = .ok model) :
    ∃ e, model.type? = some e ∧ read useDates true (.map entries) = .ok e := by
  obtain ⟨required, properties, members, others, listed, found, declared, index, rfl⟩ :=
    interfaceOf_members run
  simp only [isPlainObject, Bool.and_eq_true, Bool.not_eq_true'] at plain
  obtain ⟨⟨object, given⟩, notNull⟩ := plain
  have type : ∀ v, Entries.get? "type" entries = some v → v = .null ∨ v = .str "object" := by
    intro v there
    rw [there] at object
    split at object
    · rename_i text same
      cases same
      rw [beq_iff_eq.mp object]
      exact Or.inr rfl
    · cases object
  have there : Entries.get? "properties" entries = some (.map properties) := by
    rcases Api.mapAt_eq_ok found with ⟨absent, -⟩ | there
    · rw [Entries.given, absent] at given
      cases given
    · exact there
  exact ⟨_, rfl, read_object rule notNull type listed there (Or.inl given) declared index⟩

/-! ## Members of an `allOf` -/

theorem exists_plain {v : Value} {properties : Entries} {required : List Value}
    (found : plainMember? v = some (properties, required)) :
    ∃ fields, v = .map fields ∧ Entries.get? "properties" fields = some (.map properties) ∧
      (∀ v, Entries.get? "type" fields = some v → v = .null ∨ v = .str "object") ∧
      (Entries.get? "required" fields = some (.list required) ∨
        required = [] ∧ ∀ names, Entries.get? "required" fields ≠ some (.list names)) := by
  cases v with
  | atom a => cases found
  | list items => cases found
  | map fields =>
      refine ⟨fields, rfl, ?_⟩
      unfold plainMember? at found
      dsimp only at found
      rcases ite_eq_iff.mp found with ⟨-, excluded⟩ | ⟨included, found⟩
      · cases excluded
      · have type : ∀ v, Entries.get? "type" fields = some v → v = .null ∨ v = .str "object" := by
          intro v there
          simp only [Bool.or_eq_true, not_or, Bool.not_eq_true', Bool.not_eq_false] at included
          have object := included.2
          rw [there] at object
          split at object
          · rename_i none
            cases none
          · rename_i same
            exact Or.inl (Option.some.inj same)
          · rename_i text same
            cases same
            rw [beq_iff_eq.mp object]
            exact Or.inr rfl
          · cases object
        split at found
        · rename_i here listed
          cases found
          exact ⟨here, type, Or.inl listed⟩
        · rename_i here other
          cases found
          exact ⟨here, type, Or.inr ⟨rfl, fun names same => other names same⟩⟩
        · cases found

/-- What is put together from several members declares the properties of all of them. -/
theorem exists_mergedProperty {parts : List (Entries × List Value)} (done : Entries)
    {part : Entries × List Value} (among : part ∈ parts) {entry : Scalar × Value}
    (member : entry ∈ part.1) :
    ∃ merged ∈ parts.foldl (fun all part => Entries.putAll all part.1) done,
      merged.1 = entry.1 ∨ merged.1.same entry.1 = true := by
  have kept : ∀ (parts : List (Entries × List Value)) (done : Entries), ∀ old ∈ done,
      ∃ merged ∈ parts.foldl (fun all part => Entries.putAll all part.1) done,
        merged.1 = old.1 := by
    intro parts
    induction parts with
    | nil => exact fun done old member => ⟨old, member, rfl⟩
    | cons part rest ih =>
        intro done old member
        obtain ⟨middle, there, same⟩ := Entries.exists_putAll_old part.1 member
        obtain ⟨merged, final, same'⟩ := ih _ middle there
        exact ⟨merged, final, same'.trans same⟩
  induction parts generalizing done with
  | nil => cases among
  | cons first rest ih =>
      rcases List.mem_cons.mp among with rfl | later
      · obtain ⟨middle, there, same⟩ := Entries.exists_putAll_new done member
        obtain ⟨merged, final, same'⟩ := kept rest _ middle there
        exact ⟨merged, final, same' ▸ same⟩
      · exact ih _ later

/-- An `allOf` whose members are put together: what the members are, and what comes of them. -/
theorem merged?_members {members : List Value} {merged : Entries}
    (found : merged? members = some merged) :
    ∃ parts : List (Entries × List Value),
      List.Forall₂ (fun v part => plainMember? v = some part) members parts ∧ members ≠ [] ∧
      merged = [(.str "type", .str "object"),
        (.str "properties", .map (parts.foldl (fun all part => Entries.putAll all part.1) [])),
        (.str "required", .list (parts.flatMap Prod.snd))] := by
  unfold merged? at found
  obtain ⟨parts, each, found⟩ := Option.bind_eq_some_iff.mp found
  dsimp only at found
  split at found
  · cases found
  · rename_i filled
    cases found
    refine ⟨parts, mapM_eq_some each, ?_, rfl⟩
    rintro rfl
    cases each
    exact filled rfl

/-- What a member of an `allOf` is put together from. -/
structure PlainPart (fields : Entries) (part : Entries × List Value) : Prop where
  properties : Entries.get? "properties" fields = some (.map part.1)
  type : ∀ v, Entries.get? "type" fields = some v → v = .null ∨ v = .str "object"
  required : Entries.get? "required" fields = some (.list part.2) ∨
    Entries.get? "required" fields = none ∧ part.2 = []

theorem exists_plainPart {v : Value} {part : Entries × List Value}
    (found : plainMember? v = some part)
    (only : ∀ fields, v = .map fields → OnlyProperties fields) :
    ∃ fields, v = .map fields ∧ PlainPart fields part := by
  obtain ⟨fields, rfl, properties, type, listed | ⟨none, noList⟩⟩ := exists_plain found
  · exact ⟨fields, rfl, properties, type, Or.inl listed⟩
  · refine ⟨fields, rfl, properties, type, Or.inr ⟨?_, none⟩⟩
    cases given : Entries.get? "required" fields with
    | none => rfl
    | some v =>
        obtain ⟨names, rfl⟩ := (only fields rfl).required v given
        exact absurd given (noList names)

theorem requires_of_list {entries : Entries} {items : List Value}
    (listed : Entries.get? "required" entries = some (.list items)) (name : String) :
    requires entries name = true ↔ .str name ∈ items := by
  rw [requires, listed, Option.bind_some, Value.elements?, List.any_eq_true]
  constructor
  · rintro ⟨item, member, same⟩
    split at same
    · exact beq_iff_eq.mp same ▸ member
    · cases same
  · exact fun member => ⟨_, member, beq_self_eq_true name⟩

theorem PlainPart.requires_iff {fields : Entries} {part : Entries × List Value}
    (plain : PlainPart fields part) (name : String) :
    requires fields name = true ↔ .str name ∈ part.2 := by
  rcases plain.required with listed | ⟨absent, none⟩
  · exact requires_of_list listed name
  · rw [requires, absent, none]
    simp

theorem requiredNames_list_iff {items : List Value} :
    (∃ names, requiredNames (some (.list items)) = .ok names) ↔
      ∀ item ∈ items, item.scalar?.isSome = true := by
  rw [requiredNames, Value.elements?, ← List.all_eq_true]
  dsimp only
  split
  · rename_i scalars
    simp [scalars]
  · rename_i other
    simp [other, illShaped]

/-- An object with its properties is read as the object type that has them. -/
theorem PlainPart.read_eq (useDates : Bool) {fields : Entries} {part : Entries × List Value}
    (plain : PlainPart fields part) (only : OnlyProperties fields)
    (scalars : ∀ item ∈ part.2, item.scalar?.isSome = true)
    (readable : ∀ entry ∈ part.1, ∃ name e, entry.1 = .str name ∧
      read useDates false entry.2 = .ok e) :
    ∃ group, read useDates false (.map fields) = .ok (.object group) ∧
      AreMembers useDates (requires fields) part.1 group := by
  obtain ⟨required, listed⟩ : ∃ required,
      requiredNames (Entries.get? "required" fields) = .ok required := by
    rcases plain.required with listed | ⟨absent, -⟩
    · rw [listed]
      exact requiredNames_list_iff.mpr scalars
    · rw [absent]
      exact ⟨[], rfl⟩
  obtain ⟨group, declared⟩ : ∃ group, AreMembers useDates required.contains part.1 group := by
    refine exists_forall₂ fun entry member => ?_
    obtain ⟨text, e, key, type⟩ := readable entry member
    exact ⟨_, text, e, key, type, rfl⟩
  have type := read_object only.rule only.notNull plain.type listed plain.properties only.known
    declared (Or.inl ⟨only.closed, rfl⟩)
  rw [List.append_nil] at type
  rw [funext (contains_requiredNames listed)] at declared
  exact ⟨group, type, declared⟩

/-- The members of the object type that a member of an `allOf` is read as. -/
def IsGroup (useDates : Bool) (parts : List (Entries × List Value)) (v : Value)
    (group : List (MemberKey × TypeExpr)) : Prop :=
  read useDates false v = .ok (.object group) ∧
    ∃ fields part, v = .map fields ∧ part ∈ parts ∧ PlainPart fields part ∧
      AreMembers useDates (requires fields) part.1 group

/-- What a member declares is among the members of its object type. -/
theorem exists_group {members : List Value} {parts : List (Entries × List Value)}
    {groups : List (List (MemberKey × TypeExpr))}
    (grouped : List.Forall₂ (IsGroup useDates parts) members groups) {fields : Entries}
    {text : String} {v : Value} {e : TypeExpr} (member : .map fields ∈ members)
    (declares : DeclaresProperty fields text v) (type : read useDates false v = .ok e) :
    ∃ group ∈ groups, (MemberKey.property text (!requires fields text), e) ∈ group := by
  obtain ⟨properties, found, inside⟩ := declares
  obtain ⟨group, here, -, _, part, same, -, plain, areMembers⟩ :=
    exists_of_mem_right grouped.flip member
  cases same
  cases found.symm.trans plain.properties
  obtain ⟨m, there, text', e', key, type', rfl⟩ := exists_of_mem_right areMembers.flip inside
  cases key
  cases type.symm.trans type'
  exact ⟨group, here, there⟩

section Merged

variable {members : List Value} {parts : List (Entries × List Value)} {all : Entries}
  (each : List.Forall₂ (fun v part => plainMember? v = some part) members parts)
  (mergeable : Mergeable members)
  (together : parts.foldl (fun all part => Entries.putAll all part.1) [] = all)
include each mergeable

/-- Where a part comes from. -/
theorem exists_member {part : Entries × List Value} (among : part ∈ parts) :
    ∃ fields, .map fields ∈ members ∧ PlainPart fields part ∧ OnlyProperties fields ∧
      plainMember? (.map fields) = some part := by
  obtain ⟨v, member, found⟩ := exists_of_mem_right each among
  have only : ∀ fields, v = .map fields → OnlyProperties fields := by
    rintro fields rfl
    exact mergeable.only fields member
  obtain ⟨fields, rfl, plain⟩ := exists_plainPart found only
  exact ⟨fields, member, plain, only fields rfl, found⟩

/-- A property of the interface is covered in an object type of the intersection. -/
theorem exists_group_covers {groups : List (List (MemberKey × TypeExpr))} {required : List String}
    (grouped : List.Forall₂ (IsGroup useDates parts) members groups)
    (requiredIff : ∀ text, required.contains text = true ↔ ∃ part ∈ parts, .str text ∈ part.2)
    {part : Entries × List Value} (among : part ∈ parts) {entry : Scalar × Value}
    (inside : entry ∈ part.1) {n : MemberKey × TypeExpr}
    (member : IsMember useDates required.contains entry n) :
    ∃ group ∈ groups, ∃ m ∈ group, MemberKey.Covers m n := by
  obtain ⟨text, e, key, type, rfl⟩ := member
  obtain ⟨fields, there, plain, -, -⟩ := exists_member each mergeable among
  have declares : DeclaresProperty fields text entry.2 := ⟨_, plain.properties, key ▸ inside⟩
  by_cases needed : required.contains text = true
  · -- what one part requires is required by one that declares it
    obtain ⟨part', among', names⟩ := (requiredIff text).mp needed
    obtain ⟨fields', there', plain', -, -⟩ := exists_member each mergeable among'
    obtain ⟨fields'', w, there'', requires, declares''⟩ := mergeable.required fields' fields text
      entry.2 there' there ((plain'.requires_iff text).mpr names) declares
    obtain rfl := mergeable.agree fields fields'' text _ w there there'' declares declares''
    obtain ⟨group, here, inGroup⟩ := exists_group grouped there'' declares'' type
    rw [requires] at inGroup
    exact ⟨group, here, _, inGroup, rfl, Or.inl (by rw [needed])⟩
  · have optional : requires fields text = false := by
      refine Bool.eq_false_iff.mpr fun requires => needed ?_
      exact (requiredIff text).mpr ⟨part, among, (plain.requires_iff text).mp requires⟩
    obtain ⟨group, here, inGroup⟩ := exists_group grouped there declares type
    rw [optional] at inGroup
    exact ⟨group, here, _, inGroup, rfl, Or.inl (by rw [Bool.eq_false_iff.mpr needed])⟩

/-- Each member of the `allOf` is read as an object type. -/
theorem exists_groups (useDates : Bool)
    (scalars : ∀ part ∈ parts, ∀ item ∈ part.2, item.scalar?.isSome = true)
    (readable : ∀ part ∈ parts, ∀ entry ∈ part.1, ∃ text e, entry.1 = .str text ∧
      read useDates false entry.2 = .ok e) :
    ∃ groups, List.Forall₂ (IsGroup useDates parts) members groups := by
  refine exists_forall₂ fun v member => ?_
  obtain ⟨part, among, found⟩ := exists_of_mem_right each.flip member
  have only : ∀ fields, v = .map fields → OnlyProperties fields := by
    rintro fields rfl
    exact mergeable.only fields member
  obtain ⟨fields, rfl, plain⟩ := exists_plainPart found only
  obtain ⟨group, type, areMembers⟩ :=
    plain.read_eq useDates (only fields rfl) (scalars part among) (readable part among)
  exact ⟨group, type, fields, part, rfl, among, plain, areMembers⟩

include together

/-- Members that agree are put together to the properties that they declare. -/
theorem mem_merged_iff (textual : ∀ entry ∈ all, ∃ name, entry.1 = .str name)
    (entry : Scalar × Value) : entry ∈ all ↔ ∃ part ∈ parts, entry ∈ part.1 := by
  have source : ∀ entry ∈ all, ∃ part ∈ parts, entry ∈ part.1 := by
    intro entry member
    obtain ⟨name, key⟩ := textual entry member
    rw [← together] at member
    rcases mem_mergedProperties member with none | ⟨part, among, written, inside, value, keys⟩
    · cases none
    · have same : written.1 = .str name := by
        rcases keys with keys | keys
        · exact keys.symm.trans key
        · rw [key, Scalar.str_same] at keys
          exact keys
      have whole : entry = written := Prod.ext (key.trans same.symm) value
      exact ⟨part, among, whole ▸ inside⟩
  refine ⟨source entry, ?_⟩
  rintro ⟨part, among, inside⟩
  obtain ⟨merged, member, keys⟩ := exists_mergedProperty [] among inside
  rw [together] at member
  obtain ⟨name, key⟩ := textual merged member
  have same : entry.1 = .str name := by
    rcases keys with keys | keys
    · exact keys.symm.trans key
    · rw [key, Scalar.str_same] at keys
      exact keys
  -- both stand for the property, so they are the same schema
  obtain ⟨other, among', inside'⟩ := source merged member
  obtain ⟨fields, there, plain, -, -⟩ := exists_member each mergeable among
  obtain ⟨fields', there', plain', -, -⟩ := exists_member each mergeable among'
  have first : DeclaresProperty fields name entry.2 := ⟨_, plain.properties, same ▸ inside⟩
  have second : DeclaresProperty fields' name merged.2 := ⟨_, plain'.properties, key ▸ inside'⟩
  have value := mergeable.agree fields fields' name _ _ there there' first second
  have whole : entry = merged := Prod.ext (same.trans key.symm) value
  exact whole ▸ member

end Merged

/-- The interface that is put together from the members of an `allOf` is their intersection. -/
theorem merged_equivalent {members : List Value} {merged : Entries}
    (found : merged? members = some merged) (mergeable : Mergeable members)
    (run : interfaceOf useDates name merged = .ok model) :
    ∃ type es, model.type? = some type ∧ members.mapM (read useDates false) = .ok es ∧
      type.Equivalent (.intersection es) := by
  obtain ⟨parts, each, filled, rfl⟩ := merged?_members found
  obtain ⟨required, properties, ms, others, listed, there, declared, index, rfl⟩ :=
    interfaceOf_members run
  generalize together : parts.foldl (fun all part => Entries.putAll all part.1) [] = all at *
  obtain rfl : all = properties := Except.ok.inj there
  obtain rfl : others = [] := by
    rcases index with ⟨-, none⟩ | ⟨v, e, further, -⟩
    · exact none
    · cases further
  have scalars := requiredNames_list_iff.mp ⟨required, listed⟩
  have requiredIff (text : String) : required.contains text = true ↔
      ∃ part ∈ parts, .str text ∈ part.2 := by
    rw [contains_requiredNames listed, requires_of_list rfl, List.mem_flatMap]
  have read : ∀ entry ∈ all, ∃ text e, entry.1 = .str text ∧
      Schema.read useDates false entry.2 = .ok e ∧
      (MemberKey.property text (!required.contains text), e) ∈ ms := by
    intro entry member
    obtain ⟨m, here, text, e, key, type, rfl⟩ := exists_of_mem_right declared.flip member
    exact ⟨text, e, key, type, here⟩
  have mem_all := mem_merged_iff each mergeable together fun entry member => by
    obtain ⟨text, -, key, -⟩ := read entry member
    exact ⟨text, key⟩
  obtain ⟨groups, grouped⟩ := exists_groups each mergeable useDates
    (fun part among item inside => scalars item (List.mem_flatMap.mpr ⟨part, among, inside⟩))
    fun part among entry inside => by
      obtain ⟨text, e, key, type, -⟩ := read entry ((mem_all entry).mpr ⟨part, among, inside⟩)
      exact ⟨text, e, key, type⟩
  refine ⟨_, groups.map .object, rfl, ?_, ?_⟩
  · exact Attempt.mapM_of_forall₂ (List.forall₂_map_right_iff.mpr (grouped.imp fun _ _ g => g.1))
  rw [List.append_nil]
  refine TypeExpr.equivalent_intersection ?_ (fun n member => ?_) fun group here n member => ?_
  · rintro rfl
    cases grouped
    exact filled rfl
  · obtain ⟨entry, inside, isMember⟩ := exists_of_mem_right declared member
    obtain ⟨part, among, inside⟩ := (mem_all entry).mp inside
    exact exists_group_covers each mergeable grouped requiredIff among inside isMember
  · obtain ⟨v, -, -, fields, part, rfl, among, plain, areMembers⟩ :=
      exists_of_mem_right grouped here
    obtain ⟨entry, inside, text, e, key, type, rfl⟩ := exists_of_mem_right areMembers member
    obtain ⟨text', e', key', type', there⟩ := read entry ((mem_all entry).mpr ⟨part, among, inside⟩)
    cases key.symm.trans key'
    cases type.symm.trans type'
    refine ⟨_, there, rfl, ?_⟩
    by_cases needed : requires fields text = true
    · have contained := (requiredIff text).mpr ⟨part, among, (plain.requires_iff text).mp needed⟩
      exact Or.inl (by rw [needed, contained])
    · cases required.contains text with
      | false => exact Or.inl (by rw [Bool.eq_false_iff.mpr needed])
      | true => exact Or.inr ⟨text, rfl, by rw [Bool.eq_false_iff.mpr needed]; rfl⟩

/-! ## Declarations -/

/-- Where an interface is written, the keys that decide about the type say the same. -/
structure OnlySpelled (entries : Entries) : Prop where
  merged : ∀ members, Entries.get? "allOf" entries = some (.list members) →
    (merged? members).isSome = true →
    ruleFor true entries = .allOf ∧ Entries.given "nullable" entries = false ∧ Mergeable members
  plain : mergedAllOf? entries = none → isPlainObject entries = true →
    ruleFor true entries = .type

/-- **An interface is a spelling.**  The declaration of a component schema declares the type
that the schema describes, where the keys that an interface is written for decide about that
type; an alias always does. -/
theorem ofSchema_denotes {schema : Value} (run : ofSchema useDates name schema = .ok model)
    (spelled : ∀ entries, schema = .map entries → OnlySpelled entries) :
    ∃ type e, model.type? = some type ∧ read useDates true schema = .ok e ∧
      type.Equivalent e := by
  unfold ofSchema at run
  obtain ⟨entries, shape, run⟩ := Attempt.bind_eq_ok run
  obtain rfl := Api.asMap_eq_ok shape
  have spelled := spelled entries rfl
  split at run
  · rename_i merged found
    unfold mergedAllOf? at found
    split at found
    · rename_i members allOf
      obtain ⟨rule, notNull, mergeable⟩ := spelled.merged members allOf (by rw [found]; rfl)
      obtain ⟨type, es, declares, types, same⟩ := merged_equivalent found mergeable run
      have filled : entries ≠ [] := by
        rintro rfl
        cases allOf
      refine ⟨type, _, declares, ?_, same⟩
      rw [read_map_eq useDates true filled, rule, readBy, readMembersAt_eq, allOf,
        Option.map_some, Option.getD_some, readMembers, readItems_eq, types]
      refine congrArg Except.ok ?_
      exact if_neg (Bool.eq_false_iff.mp notNull)
    · cases found
  · rename_i unmerged
    split at run
    · rename_i plain
      obtain ⟨e, declares, type⟩ := plainObject_read plain (spelled.plain unmerged plain) run
      exact ⟨e, e, declares, type, .refl e⟩
    · obtain ⟨e, type, run⟩ := Attempt.bind_eq_ok run
      cases run
      exact ⟨e, e, rfl, type, .refl e⟩

/-- A member of `numberedPet` that requires the number. -/
def numbered : Entries :=
  [(.str "properties", .object [("id", .object [("type", .str "integer")])]),
    (.str "required", .list [.str "id"])]

/-- A member of `numberedPet` that declares the number once more, and a name. -/
def named : Entries :=
  [(.str "properties", .object [("id", .object [("type", .str "integer")]),
    ("name", .object [("type", .str "string")])])]

/-- A pet with a number, which may also have a name. -/
def numberedPet : Value := .object [("allOf", .list [.map numbered, .map named])]

/-- The interface for such a pet. -/
def petMembers : List (MemberKey × TypeExpr) :=
  [(.property "id" false, .primitive .number), (.property "name" true, .primitive .string)]

theorem ofSchema_denotes_numberedPet :
    (∀ entries, numberedPet = .map entries → OnlySpelled entries) ∧
    ofSchema false "Pet" numberedPet = .ok (.interface "Pet" petMembers) ∧
    ∃ e, read false true numberedPet = .ok e ∧ (TypeExpr.object petMembers).Equivalent e := by
  have members {fields : Entries} (member : .map fields ∈ [Value.map numbered, .map named]) :
      fields = numbered ∨ fields = named := by
    simpa using member
  have declared {fields : Entries} {name : String} {v : Value}
      (member : .map fields ∈ [Value.map numbered, .map named])
      (declares : DeclaresProperty fields name v) :
      name = "id" ∧ v = .object [("type", .str "integer")] ∨
        name = "name" ∧ v = .object [("type", .str "string")] := by
    obtain ⟨properties, found, inside⟩ := declares
    rcases members member with rfl | rfl
    · cases found
      simp_all [Value.object]
    · cases found
      simp_all [Value.object]
  have spelled : ∀ entries, numberedPet = .map entries → OnlySpelled entries := by
    rintro entries ⟨⟩
    refine ⟨?_, fun unmerged => by cases unmerged⟩
    rintro _ ⟨⟩ -
    refine ⟨by decide, by decide, ?_, ?_, ?_⟩
    · intro fields member
      rcases members member with rfl | rfl
      · refine ⟨by decide, by decide, by decide, Or.inl (by decide), ?_⟩
        rintro v ⟨⟩
        exact ⟨_, rfl⟩
      · refine ⟨by decide, by decide, by decide, Or.inl (by decide), ?_⟩
        rintro v ⟨⟩
    · intro fields fields' name v w member member' declares declares'
      rcases declared member declares with ⟨rfl, rfl⟩ | ⟨rfl, rfl⟩
      · rcases declared member' declares' with ⟨-, rfl⟩ | ⟨other, -⟩
        · rfl
        · exact absurd other (by decide)
      · rcases declared member' declares' with ⟨other, -⟩ | ⟨-, rfl⟩
        · exact absurd other (by decide)
        · rfl
    · intro fields fields' name v member member' needed declares
      obtain rfl : name = "id" := by
        rcases members member with rfl | rfl
        · have listed := (requires_of_list rfl name).mp needed
          simpa using listed
        · cases needed
      refine ⟨numbered, _, List.mem_cons_self, by decide, _, rfl, List.mem_cons_self⟩
  have run : ofSchema false "Pet" numberedPet = .ok (.interface "Pet" petMembers) := by rfl
  obtain ⟨type, e, declares, described, same⟩ := ofSchema_denotes run spelled
  cases declares
  exact ⟨spelled, run, e, described, same⟩

/-- A pet that may be null, and otherwise has what the member of an `allOf` declares. -/
def nullablePet : Value := .object [("allOf", .list [.map named]), ("nullable", .bool true)]

/-- The members of an object type for `named`. -/
def namedMembers : List (MemberKey × TypeExpr) :=
  [(.property "id" true, .primitive .number), (.property "name" true, .primitive .string)]

/-- An interface for an `allOf` leaves out that the type may be null. -/
theorem ofSchema_drops_null :
    ofSchema false "Pet" nullablePet = .ok (.interface "Pet" namedMembers) ∧
      ∃ e, read false true nullablePet = .ok e ∧ ¬ (TypeExpr.object namedMembers).Equivalent e := by
  refine ⟨rfl, .nullable (.intersection [.object namedMembers]), rfl, fun same => ?_⟩
  -- null has a value, and no object has one
  let I : Interpretation Unit :=
    ⟨fun text => {_x | text = "null"}, fun _ => ∅, fun _ => ∅, fun _ => ∅⟩
  have structural : I.Structural := ⟨∅, fun _ _ => ∅, by simp [I], by simp⟩
  have null : () ∈ I.values (TypeExpr.nullable (.intersection [.object namedMembers])).tree :=
    ⟨I.values .null, List.mem_cons_of_mem _ List.mem_cons_self, rfl⟩
  rw [← same Unit I structural] at null
  cases null

end Model

end ClientForge
