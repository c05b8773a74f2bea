/-
# ClientForge.Proofs.Models.Merging -- the members of an `allOf` in one interface

The members of an `allOf` are put together by going through them once: the properties of each
are put into a map, and the names that it requires behind those of the members before it.  What
comes of it depends on two lists only, all declarations of properties in their order
(`declarations`) and all required names.

What carries this is one step of the map (`forall₂_put`): a declaration either replaces the
schema of its property where the property stands, or goes to the end.  So at any time the map
has a place for each declared name, in the order of the first declarations, and at this place
the schema of the last one (`putAll_declared`).  The interface is read off the map place by
place.  Where no two members declare a property of one name, an exchange of members changes
neither the last declaration of a name nor who requires it, and the places are exchanged.
-/
import ClientForge.Proofs.Data.Keys
import ClientForge.Proofs.Imports.Order
import ClientForge.Proofs.Models.Spelling

namespace ClientForge

set_option autoImplicit false

namespace Model

open Schema

/-! ## Members -/

/-- What keeps a member of an `allOf` from being put together with others. -/
inductive Hinders : Value → Prop
  | atom (a : Scalar) : Hinders (.atom a)
  | list (items : List Value) : Hinders (.list items)
  | reference {entries : Entries} (there : Entries.has "$ref" entries = true) :
      Hinders (.map entries)
  | named {entries : Entries} (there : Entries.has schemaNameKey entries = true) :
      Hinders (.map entries)
  | typed {entries : Entries} {type : Value} (there : Entries.get? "type" entries = some type)
      (given : type ≠ .null) (other : type ≠ .str "object") : Hinders (.map entries)
  | bare {entries : Entries}
      (none : ∀ properties, Entries.get? "properties" entries ≠ some (.map properties)) :
      Hinders (.map entries)

/-- The properties that a member declares, in order. -/
def propertiesOf : Value → Entries
  | .map entries =>
    match Entries.get? "properties" entries with
    | some (.map properties) => properties
    | _ => []
  | _ => []

/-- The items of a member's list of required names. -/
def requiredItems : Value → List Value
  | .map entries =>
    match Entries.get? "required" entries with
    | some (.list items) => items
    | _ => []
  | _ => []

/-- All declarations of properties, in order. -/
def declarations (members : List Value) : Entries := members.flatMap propertiesOf

/-- The schema that members are put together to. -/
def together (members : List Value) : Entries :=
  [(.str "type", .str "object"),
    (.str "properties", .map (Entries.putAll [] (declarations members))),
    (.str "required", .list (members.flatMap requiredItems))]

theorem together_properties (members : List Value) :
    Api.mapAt "properties" (together members) =
      .ok (Entries.putAll [] (declarations members)) := rfl

theorem together_required (members : List Value) :
    Entries.get? "required" (together members) =
      some (.list (members.flatMap requiredItems)) := rfl

theorem plainMember?_of_hinders {v : Value} (hinders : Hinders v) : plainMember? v = none := by
  by_contra some
  obtain ⟨⟨properties, required⟩, found⟩ := Option.ne_none_iff_exists'.mp some
  obtain ⟨fields, rfl, here, type, -⟩ := exists_plain found
  cases hinders with
  | reference there => simp [plainMember?, there] at found
  | named there => simp [plainMember?, there] at found
  | typed there given other =>
      rcases type _ there with null | object
      · exact given null
      · exact other object
  | bare none => exact none properties here

/-- A member that nothing hinders contributes its properties and the names that it requires. -/
theorem plainMember?_of_not_hinders {v : Value} (free : ¬ Hinders v) :
    plainMember? v = some (propertiesOf v, requiredItems v) := by
  cases v with
  | atom a => exact absurd (.atom a) free
  | list items => exact absurd (.list items) free
  | map entries =>
      have noReference : Entries.has "$ref" entries = false :=
        Bool.eq_false_iff.mpr fun there => free (.reference there)
      have noName : Entries.has schemaNameKey entries = false :=
        Bool.eq_false_iff.mpr fun there => free (.named there)
      obtain ⟨properties, found⟩ : ∃ properties,
          Entries.get? "properties" entries = some (.map properties) := by
        by_contra none
        exact free (.bare fun properties found => none ⟨properties, found⟩)
      have type : ∀ v, Entries.get? "type" entries = some v → v = .null ∨ v = .str "object" := by
        intro v there
        by_contra other
        exact free (.typed there (fun same => other (Or.inl same)) fun same => other (Or.inr same))
      have possible : Entries.get? "type" entries = none ∨
          Entries.get? "type" entries = some .null ∨
          Entries.get? "type" entries = some (.str "object") := by
        cases given : Entries.get? "type" entries with
        | none => exact Or.inl rfl
        | some v =>
            rcases type v given with rfl | rfl
            · exact Or.inr (Or.inl rfl)
            · exact Or.inr (Or.inr rfl)
      unfold plainMember? propertiesOf requiredItems
      dsimp only
      rw [noReference, noName, found]
      rcases possible with given | given | given <;> rw [given] <;>
        rcases Entries.get? "required" entries with _ | _ | _ | _ <;> rfl

/-- Members that nothing hinders are put together to their declarations, if there are any. -/
theorem merged?_eq (members : List Value) (free : ∀ m ∈ members, ¬ Hinders m) :
    merged? members =
      if declarations members = [] then none else some (together members) := by
  have parts : members.mapM plainMember? =
      some (members.map fun m => (propertiesOf m, requiredItems m)) := by
    induction members with
    | nil => rfl
    | cons m rest ih =>
        obtain ⟨first, others⟩ := List.forall_mem_cons.mp free
        rw [List.mapM_cons, plainMember?_of_not_hinders first, ih others]
        rfl
  have properties (done : Entries) :
      (members.map fun m => (propertiesOf m, requiredItems m)).foldl
        (fun all part => Entries.putAll all part.1) done =
          Entries.putAll done (declarations members) := by
    rw [List.foldl_map, declarations, Entries.putAll, List.foldl_flatMap]
    rfl
  unfold merged?
  rw [parts]
  dsimp only [bind, Option.bind]
  rw [properties, List.flatMap_map, Entries.putAll_isEmpty]
  simp only [List.isEmpty_iff, together]

/-- Members are put together unless one of them is hindered or none declares a property. -/
theorem merged?_eq_none_iff (members : List Value) :
    merged? members = none ↔
      (∃ m ∈ members, Hinders m) ∨ ∀ m ∈ members, propertiesOf m = [] := by
  by_cases hindered : ∃ m ∈ members, Hinders m
  · refine iff_of_true ?_ (Or.inl hindered)
    obtain ⟨m, member, hinders⟩ := hindered
    cases found : merged? members with
    | none => rfl
    | some merged =>
        obtain ⟨parts, each, -⟩ := merged?_members found
        obtain ⟨part, -, plain⟩ := exists_of_mem_right each.flip member
        rw [plainMember?_of_hinders hinders] at plain
        cases plain
  · have free : ∀ m ∈ members, ¬ Hinders m := fun m member hinders => hindered ⟨m, member, hinders⟩
    rw [merged?_eq members free, or_iff_right hindered, ← List.flatMap_eq_nil_iff]
    simp [declarations]

/-- What members are put together to, where they are. -/
theorem merged?_eq_some_iff {members : List Value} {merged : Entries} :
    merged? members = some merged ↔
      (∀ m ∈ members, ¬ Hinders m) ∧ declarations members ≠ [] ∧ merged = together members := by
  constructor
  · intro found
    have given : ¬ merged? members = none := by simp [found]
    rw [merged?_eq_none_iff, not_or] at given
    have free : ∀ m ∈ members, ¬ Hinders m := fun m member hinders => given.1 ⟨m, member, hinders⟩
    rw [merged?_eq members free] at found
    split at found
    · cases found
    · rename_i filled
      cases found
      exact ⟨free, filled, rfl⟩
  · rintro ⟨free, filled, rfl⟩
    rw [merged?_eq members free, if_neg filled]

/-! ## Declarations in order -/

/-- The last declaration of a property has the schema. -/
def LastIn (declared : Entries) (name : String) (v : Value) : Prop :=
  ∃ front back, declared = front ++ (.str name, v) :: back ∧ ∀ entry ∈ back, entry.1 ≠ .str name

/-- The declarations of one property. -/
def declaring (name : String) (declared : Entries) : Entries :=
  declared.filter fun entry => entry.1 = .str name

theorem lastIn_iff {declared : Entries} {name : String} {v : Value} :
    LastIn declared name v ↔ (declaring name declared).getLast? = some (.str name, v) := by
  unfold declaring
  constructor
  · rintro ⟨front, back, rfl, none⟩
    have behind : back.filter (fun entry => entry.1 = .str name) = [] := by
      simpa [List.filter_eq_nil_iff] using none
    rw [List.filter_append, List.filter_cons_of_pos (by simp), behind, List.getLast?_concat]
  · intro last
    obtain ⟨before, split⟩ := List.getLast?_eq_some_iff.mp last
    obtain ⟨front, rest, rfl, -, tail⟩ := List.filter_eq_append_iff.mp split
    obtain ⟨middle, back, rfl, -, -, none⟩ := List.filter_eq_cons_iff.mp tail
    refine ⟨front ++ middle, back, (List.append_assoc _ _ _).symm, ?_⟩
    simpa [List.filter_eq_nil_iff] using none

theorem LastIn.unique {declared : Entries} {name : String} {v w : Value}
    (first : LastIn declared name v) (second : LastIn declared name w) : v = w := by
  have same := (lastIn_iff.mp first).symm.trans (lastIn_iff.mp second)
  simpa using same

/-- A declaration is the last one of its own property and of no other. -/
theorem lastIn_snoc {declared : Entries} {name : String} (v : Value) :
    LastIn (declared ++ [(.str name, v)]) name v :=
  ⟨declared, [], rfl, by simp⟩

theorem LastIn.snoc {declared : Entries} {n name : String} {v : Value}
    (last : LastIn declared n v) (other : n ≠ name) (w : Value) :
    LastIn (declared ++ [(.str name, w)]) n v := by
  obtain ⟨front, back, rfl, none⟩ := last
  refine ⟨front, back ++ [(.str name, w)], by simp, fun entry member => ?_⟩
  rcases List.mem_append.mp member with old | new
  · exact none entry old
  · rw [List.mem_singleton.mp new]
    exact fun same => other (Scalar.str.inj same).symm

/-- What a declaration changes: it takes the place of its name, or a new one at the end. -/
theorem forall₂_put {R S : String → Scalar × Value → Prop} {names : List String}
    {entries : Entries} {name : String} {v : Value} (each : List.Forall₂ R names entries)
    (keyed : ∀ n entry, R n entry → entry.1 = .str n)
    (others : ∀ n entry, n ≠ name → R n entry → S n entry) (own : S name (.str name, v))
    (distinct : names.Nodup) :
    List.Forall₂ S (if name ∈ names then names else names ++ [name])
      (Entries.put (.str name) v entries) := by
  induction each with
  | nil => exact .cons own .nil
  | @cons n entry names entries first rest ih =>
      obtain ⟨k, w⟩ := entry
      obtain rfl : k = .str n := keyed _ _ first
      obtain ⟨new, distinct⟩ := List.nodup_cons.mp distinct
      have sameKey : (Scalar.str n).same (.str name) = true ↔ n = name := by
        rw [Scalar.same_str, Scalar.str.injEq]
      rw [Entries.put]
      by_cases same : n = name
      · rw [if_pos (sameKey.mpr same)]
        subst same
        have apart : ∀ m ∈ names, m ≠ n := fun m member equal => new (equal ▸ member)
        have kept : List.Forall₂ S names entries :=
          ((List.forall₂_and_left _ _).mpr ⟨apart, rest⟩).imp fun m entry both =>
            others m entry both.1 both.2
        rw [if_pos List.mem_cons_self]
        exact .cons own kept
      · rw [if_neg (mt sameKey.mp same)]
        have grown := List.Forall₂.cons (others _ _ same first) (ih distinct)
        by_cases known : name ∈ names
        · rw [if_pos known] at grown
          rwa [if_pos (List.mem_cons_of_mem n known)]
        · have absent : name ∉ n :: names := by
            rw [List.mem_cons, not_or]
            exact ⟨fun equal => same equal.symm, known⟩
          rw [if_neg known] at grown
          rwa [if_neg absent]

/-- Where declarations are put, there is a place for each name, in the order of the first
declarations, with the schema of the last. -/
theorem putAll_declared {declared : Entries} {names : List String}
    (keys : declared.map Prod.fst = names.map .str) :
    List.Forall₂ (fun name entry => entry.1 = .str name ∧ LastIn declared name entry.2)
      names.eraseDups (Entries.putAll [] declared) := by
  induction declared using List.reverseRecOn generalizing names with
  | nil =>
      obtain rfl : names = [] := by simpa using keys.symm
      exact .nil
  | append_singleton declared entry ih =>
      obtain ⟨k, v⟩ := entry
      rw [List.map_append, List.map_singleton] at keys
      obtain ⟨before, last, rfl, earlier, own⟩ := List.map_eq_append_iff.mp keys.symm
      obtain ⟨name, rfl, rfl⟩ := List.map_eq_singleton_iff.mp own
      have put : Entries.putAll [] (declared ++ [(.str name, v)]) =
          Entries.put (.str name) v (Entries.putAll [] declared) := by
        unfold Entries.putAll
        rw [List.foldl_append]
        rfl
      have placed := forall₂_put (ih earlier.symm) (fun _ _ both => both.1)
        (S := fun n entry => entry.1 = .str n ∧ LastIn (declared ++ [(.str name, v)]) n entry.2)
        (fun n entry other both => ⟨both.1, both.2.snoc other v⟩) ⟨rfl, lastIn_snoc v⟩
        (nodup_eraseDups before)
      rw [put, eraseDups_snoc]
      simpa only [List.mem_eraseDups] using placed

/-! ## The interface -/

/-- The member of the interface for a property: it has the type of the last declaration, and a
question mark exactly if no member requires the property. -/
def IsJoined (useDates : Bool) (members : List Value) (name : String)
    (m : MemberKey × TypeExpr) : Prop :=
  ∃ v e optional, LastIn (declarations members) name v ∧ read useDates false v = .ok e ∧
    m = (.property name optional, e) ∧
    (optional = true ↔ ∀ member ∈ members, .str name ∉ requiredItems member)

/-- The members of an interface that the members of an `allOf` are put together to. -/
structure Joins (useDates : Bool) (members : List Value) (ms : List (MemberKey × TypeExpr)) :
    Prop where
  /-- What is listed as required can be looked up. -/
  listed : ∀ member ∈ members, ∀ item ∈ requiredItems member, item.scalar?.isSome = true
  /-- There is one for each declared name, in the order of the first declarations. -/
  placed : ∃ names : List String, (declarations members).map Prod.fst = names.map .str ∧
    List.Forall₂ (IsJoined useDates members) names.eraseDups ms

section Interface

variable {useDates : Bool} {name : String} {members : List Value}

/-- A list whose items are all made by a function is made item by item. -/
theorem exists_eq_map {α β : Type} {f : α → β} {ys : List β} (each : ∀ y ∈ ys, ∃ x, f x = y) :
    ∃ xs : List α, ys = xs.map f := by
  have range : ys ∈ Set.range (List.map f) := by
    rw [Set.range_list_map]
    exact each
  obtain ⟨xs, same⟩ := range
  exact ⟨xs, same.symm⟩

/-- Where every place of the map has a name, every declaration has one. -/
theorem declared_textual {declared : Entries}
    (textual : ∀ entry ∈ Entries.putAll [] declared, ∃ name, entry.1 = .str name) :
    ∀ key ∈ declared.map Prod.fst, ∃ name, Scalar.str name = key := by
  intro key member
  obtain ⟨entry, there, rfl⟩ := List.mem_map.mp member
  obtain ⟨written, put, same⟩ := Entries.exists_putAll_new [] there
  obtain ⟨name, text⟩ := textual written put
  refine ⟨name, ?_⟩
  rcases same with same | same
  · rw [← same, text]
  · rw [text, Scalar.str_same] at same
    exact same.symm

theorem member_eq_ok {required : List String} {entry : Scalar × Value} {m : MemberKey × TypeExpr}
    (isMember : IsMember useDates required.contains entry m) :
    Model.member useDates required entry.1 entry.2 = .ok m := by
  obtain ⟨name, e, key, type, rfl⟩ := isMember
  unfold Model.member
  rw [type, key]
  rfl

/-- What counts as required in the interface is what a member requires. -/
theorem optional_iff {required : List String}
    (listed : requiredNames (Entries.get? "required" (together members)) = .ok required)
    (text : String) :
    (!required.contains text) = true ↔ ∀ member ∈ members, .str text ∉ requiredItems member := by
  have items : requires (together members) text = true ↔
      .str text ∈ members.flatMap requiredItems := requires_of_list (together_required members) text
  rw [contains_requiredNames listed, Bool.not_eq_true', Bool.eq_false_iff, ne_eq, items,
    List.mem_flatMap]
  push Not
  rfl

/-- **The interface of what members are put together to** has the members that these declare. -/
theorem interfaceOf_together_iff {model : Model} :
    interfaceOf useDates name (together members) = .ok model ↔
      ∃ ms, model = .interface name ms ∧ Joins useDates members ms := by
  constructor
  · intro run
    obtain ⟨required, properties, ms, others, listed, there, declared, index, rfl⟩ :=
      interfaceOf_members run
    rw [together_properties] at there
    obtain rfl := Except.ok.inj there
    obtain rfl : others = [] := by
      rcases index with ⟨-, none⟩ | ⟨v, e, further, -⟩
      · exact none
      · cases further
    rw [List.append_nil]
    refine ⟨ms, rfl, ?_⟩
    constructor
    case listed =>
      intro member among item inside
      rw [together_required] at listed
      exact requiredNames_list_iff.mp ⟨required, listed⟩ item
        (List.mem_flatMap.mpr ⟨member, among, inside⟩)
    case placed =>
      obtain ⟨names, keys⟩ := exists_eq_map (declared_textual fun entry inside => by
        obtain ⟨m, -, text, e, key, -⟩ := exists_of_mem_right declared.flip inside
        exact ⟨text, key⟩)
      refine ⟨names, keys, forall₂_comp ?_ (putAll_declared keys) declared⟩
      rintro text entry m ⟨key, last⟩ ⟨text', e, key', type, rfl⟩
      cases key.symm.trans key'
      exact ⟨entry.2, e, _, last, type, rfl, optional_iff listed text⟩
  · rintro ⟨ms, rfl, joins⟩
    obtain ⟨names, keys, placed⟩ := joins.placed
    obtain ⟨required, listed⟩ : ∃ required,
        requiredNames (Entries.get? "required" (together members)) = .ok required := by
      refine requiredNames_list_iff.mpr fun item inside => ?_
      obtain ⟨member, among, inside⟩ := List.mem_flatMap.mp inside
      exact joins.listed member among item inside
    have declared : AreMembers useDates required.contains
        (Entries.putAll [] (declarations members)) ms := by
      refine forall₂_comp ?_ (putAll_declared keys).flip placed
      rintro entry text m ⟨key, last⟩ ⟨v, e, optional, last', type, rfl, question⟩
      obtain rfl := last.unique last'
      refine ⟨text, e, key, type, ?_⟩
      rw [Bool.eq_iff_iff.mpr (question.trans (optional_iff listed text).symm)]
    have read : (Entries.putAll [] (declarations members)).mapM
        (fun entry => Model.member useDates required entry.1 entry.2) = .ok ms :=
      Attempt.mapM_of_forall₂ (declared.imp fun entry m => member_eq_ok)
    unfold interfaceOf
    rw [listed]
    dsimp only [bind, Except.bind]
    rw [together_properties]
    dsimp only
    rw [read]
    rfl

end Interface

/-! ## Members in another order -/

/-- Two members that declare no property of one name. -/
def Apart (m n : Value) : Prop :=
  ∀ a ∈ propertiesOf m, ∀ b ∈ propertiesOf n, a.1 ≠ b.1

theorem Apart.symm {m n : Value} (apart : Apart m n) : Apart n m :=
  fun b inside a other => (apart a other b inside).symm

section Permuted

variable {useDates : Bool} {members members' : List Value}

theorem declaring_cons (name : String) (m : Value) (members : List Value) :
    declaring name (declarations (m :: members)) =
      declaring name (propertiesOf m) ++ declaring name (declarations members) := by
  rw [declarations, List.flatMap_cons]
  exact List.filter_append _ _

/-- One of two members that are apart does not declare a property. -/
theorem Apart.declaring {m n : Value} (apart : Apart m n) (name : String) :
    declaring name (propertiesOf m) = [] ∨ declaring name (propertiesOf n) = [] := by
  by_contra both
  rw [not_or] at both
  obtain ⟨a, first⟩ := List.exists_mem_of_ne_nil _ both.1
  obtain ⟨b, second⟩ := List.exists_mem_of_ne_nil _ both.2
  obtain ⟨inside, key⟩ := List.mem_filter.mp first
  obtain ⟨inside', key'⟩ := List.mem_filter.mp second
  exact apart a inside b inside' ((of_decide_eq_true key).trans (of_decide_eq_true key').symm)

/-- Members that are apart may change places without a change for any one property. -/
theorem declaring_perm (perm : members.Perm members') (apart : members.Pairwise Apart)
    (name : String) :
    declaring name (declarations members) = declaring name (declarations members') := by
  induction perm with
  | nil => rfl
  | cons m _ ih => rw [declaring_cons, declaring_cons, ih (List.pairwise_cons.mp apart).2]
  | swap m n rest =>
      have two : Apart n m := (List.pairwise_cons.mp apart).1 m List.mem_cons_self
      simp only [declaring_cons]
      rcases two.declaring name with none | none
      · rw [none, List.nil_append, List.nil_append]
      · rw [none, List.nil_append, List.nil_append]
  | trans first _ ih ih' =>
      have later := (first.pairwise_iff fun apart => Apart.symm apart).mp apart
      exact (ih apart).trans (ih' later)

theorem IsJoined.perm (perm : members.Perm members') (apart : members.Pairwise Apart)
    {name : String} {m : MemberKey × TypeExpr} (joined : IsJoined useDates members name m) :
    IsJoined useDates members' name m := by
  obtain ⟨v, e, optional, last, type, rfl, question⟩ := joined
  refine ⟨v, e, optional, ?_, type, rfl, question.trans ?_⟩
  · rw [lastIn_iff] at last ⊢
    rw [← declaring_perm perm apart]
    exact last
  · exact ⟨fun none m among => none m (perm.mem_iff.mpr among),
      fun none m among => none m (perm.mem_iff.mp among)⟩

/-- Members that are apart have the same interface in any order, but for the order of its lines. -/
theorem Joins.perm (perm : members.Perm members') (apart : members.Pairwise Apart)
    {ms : List (MemberKey × TypeExpr)} (joins : Joins useDates members ms) :
    ∃ ms', Joins useDates members' ms' ∧ ms'.Perm ms := by
  obtain ⟨names, keys, placed⟩ := joins.placed
  have same : ((declarations members').map Prod.fst).Perm (names.map .str) :=
    keys ▸ (perm.symm.flatMap_right propertiesOf).map Prod.fst
  obtain ⟨names', keys'⟩ : ∃ names' : List String,
      (declarations members').map Prod.fst = names'.map .str :=
    exists_eq_map fun key member => by
      obtain ⟨name, -, text⟩ := List.mem_map.mp (same.mem_iff.mp member)
      exact ⟨name, text⟩
  have among (name : String) : name ∈ names' ↔ name ∈ names := by
    have texts := same.mem_iff (a := .str name)
    rw [keys'] at texts
    simpa using texts
  have distinct : names'.eraseDups.Perm names.eraseDups := by
    refine (List.perm_ext_iff_of_nodup (nodup_eraseDups _) (nodup_eraseDups _)).mpr fun name => ?_
    rw [List.mem_eraseDups, List.mem_eraseDups, among]
  obtain ⟨ms', placed', exchanged⟩ := List.perm_comp_forall₂ distinct placed
  refine ⟨ms', ?_, exchanged⟩
  constructor
  case listed => exact fun m member => joins.listed m (perm.mem_iff.mpr member)
  case placed => exact ⟨names', keys', placed'.imp fun name m => IsJoined.perm perm apart⟩

theorem merged?_perm {merged : Entries} (perm : members.Perm members')
    (found : merged? members = some merged) : merged? members' = some (together members') := by
  obtain ⟨free, filled, -⟩ := merged?_eq_some_iff.mp found
  refine merged?_eq_some_iff.mpr ⟨?_, ?_, rfl⟩
  · exact fun m member => free m (perm.mem_iff.mpr member)
  · intro none
    have exchanged := perm.flatMap_right propertiesOf
    rw [← declarations, ← declarations, none] at exchanged
    exact filled exchanged.eq_nil

end Permuted

theorem interfaceLines_perm (name : String) {ms ms' : List (MemberKey × TypeExpr)}
    (perm : ms'.Perm ms) : (interfaceLines name ms').Perm (interfaceLines name ms) :=
  ((perm.map _).cons _).append_right _

/-- **The members of an `allOf` in one interface.**  They are put together exactly if nothing
hinders one of them and one of them declares a property.  The interface then has one member for
each declared property, in the order of the first declarations, with the type of the last one,
and with a question mark exactly if no member requires the property.  Where no two members
declare the same property, their order is that of the lines and nothing else. -/
theorem mergedInterface_declares (useDates : Bool) (name : String) (members : List Value) :
    (merged? members = none ↔
      (∃ m ∈ members, Hinders m) ∨ ∀ m ∈ members, propertiesOf m = []) ∧
    ∀ merged, merged? members = some merged →
      (∀ entries, Entries.get? "allOf" entries = some (.list members) →
        ofSchema useDates name (.map entries) = interfaceOf useDates name merged) ∧
      (∀ model, interfaceOf useDates name merged = .ok model ↔
        ∃ ms, model = .interface name ms ∧ Joins useDates members ms) ∧
      ∀ members', members.Perm members' → members.Pairwise Apart →
        ∃ merged', merged? members' = some merged' ∧
          ∀ ms, interfaceOf useDates name merged = .ok (.interface name ms) →
            ∃ ms', interfaceOf useDates name merged' = .ok (.interface name ms') ∧ ms'.Perm ms ∧
              (interfaceLines name ms').Perm (interfaceLines name ms) := by
  refine ⟨merged?_eq_none_iff members, fun merged found => ?_⟩
  obtain ⟨-, -, rfl⟩ := merged?_eq_some_iff.mp found
  refine ⟨?_, fun model => interfaceOf_together_iff, ?_⟩
  · intro entries allOf
    have chosen : mergedAllOf? entries = some (together members) := by
      unfold mergedAllOf?
      rw [allOf]
      exact found
    unfold ofSchema
    dsimp only [Api.asMap, bind, Except.bind]
    rw [chosen]
  · intro members' perm apart
    refine ⟨together members', merged?_perm perm found, fun ms run => ?_⟩
    obtain ⟨_, same, joins⟩ := interfaceOf_together_iff.mp run
    cases same
    obtain ⟨ms', joins', exchanged⟩ := joins.perm perm apart
    exact ⟨ms', interfaceOf_together_iff.mpr ⟨ms', rfl, joins'⟩, exchanged,
      interfaceLines_perm name exchanged⟩

/-- A member that declares and requires a number. -/
def numberedPart : Value := .object [
  ("properties", .object [("id", .object [("type", .str "integer")])]),
  ("required", .list [.str "id"])]

/-- A member that declares a name. -/
def namedPart : Value := .object [
  ("properties", .object [("name", .object [("type", .str "string")])])]

theorem mergedInterface_declares_pet :
    [numberedPart, namedPart].Pairwise Apart ∧
    ∃ merged merged', merged? [numberedPart, namedPart] = some merged ∧
      merged? [namedPart, numberedPart] = some merged' ∧
      interfaceOf false "Pet" merged = .ok (.interface "Pet" petMembers) ∧
      ∃ ms', interfaceOf false "Pet" merged' = .ok (.interface "Pet" ms') ∧
        ms'.Perm petMembers := by
  have apart : [numberedPart, namedPart].Pairwise Apart := by
    refine .cons (fun n member => ?_) (List.pairwise_singleton _ _)
    obtain rfl := List.mem_singleton.mp member
    intro a inside b inside'
    rw [List.mem_singleton.mp inside, List.mem_singleton.mp inside']
    decide
  have found : merged? [numberedPart, namedPart] = some (together [numberedPart, namedPart]) := rfl
  obtain ⟨-, interface, permuted⟩ :=
    (mergedInterface_declares false "Pet" [numberedPart, namedPart]).2 _ found
  obtain ⟨merged', found', exchanged⟩ := permuted _ (List.Perm.swap _ _ []) apart
  have run : interfaceOf false "Pet" (together [numberedPart, namedPart]) =
      .ok (.interface "Pet" petMembers) := rfl
  obtain ⟨ms', run', perm, -⟩ := exchanged petMembers run
  exact ⟨apart, _, merged', found, found', run, ms', run', perm⟩

/-- A property stands where the first member declares it, has the type that the last one gives
it, and is required if any of them requires it. -/
example :
    let last : Value := .object [("properties", .object [
      ("name", .object [("type", .str "string")]), ("id", .object [("type", .str "string")])])]
    ofSchema false "Pet" (.object [("allOf", .list [numberedPart, last])]) =
      .ok (.interface "Pet" [
        (.property "id" false, .primitive .string),
        (.property "name" true, .primitive .string)]) :=
  rfl

end Model

end ClientForge
