/-
# ClientForge.Proofs.Operation.Merging -- what a document declares, operation by operation

Reading a document gives one operation for every verb of every path that holds one, in order
(`Api.ofDocument_operations`).  Its parameters are merged from two lists, those of the path and its
own.  `Merges` says what becomes of such a list without saying how: a parameter stands where it is
declared first and is what it is declared as last, and a declaration without a name or a location
is a parameter for itself.

The invariant is `Placed`: which places of the list the merged parameters stand at, and what they
hold so far.  One declaration more either replaces what one place holds or takes a place of its own
(`Placed.put`), because keys that are the same as a third one are the same.
-/
import ClientForge.Proofs.Client.Signatures
import ClientForge.Proofs.Data.Keys
import ClientForge.Proofs.Operation.Parameters

namespace ClientForge

set_option autoImplicit false

/-! ## Declarations of parameters -/

/-- What a declared parameter is known by: its name and its location, if both count as given. -/
def Entries.knownAs (entries : Entries) : Option (Scalar.Identity × Scalar.Identity) :=
  match Entries.get? "name" entries, Entries.get? "in" entries with
  | some (.atom name), some (.atom location) =>
    if name.truthy && location.truthy then some (name.identity, location.identity) else none
  | _, _ => none

/-- Two declarations are of one parameter. -/
def Entries.Redeclares (d e : Entries) : Prop :=
  d.knownAs.isSome = true ∧ d.knownAs = e.knownAs

/-- No earlier declaration is of the same parameter. -/
def IsFirst (declared : List Entries) (i : Nat) : Prop :=
  ∃ own, declared[i]? = some own ∧
    ∀ j e, j < i → declared[j]? = some e → ¬ Entries.Redeclares e own

/-- The last declaration of the parameter that is declared at a place, which is the one there if
there is no other. -/
def IsLast (declared : List Entries) (i : Nat) (d : Entries) : Prop :=
  ∃ own j, declared[i]? = some own ∧ declared[j]? = some d ∧
    (j = i ∨ Entries.Redeclares own d) ∧
    ∀ k e, j < k → declared[k]? = some e → ¬ Entries.Redeclares own e

/-- The parameters that a list of declarations comes to: one for every first declaration, in order,
each as it is declared last. -/
def Merges (declared : List Entries) (parameters : List RawParameter) : Prop :=
  ∃ places : List Nat, places.Pairwise (· < ·) ∧ (∀ i, i ∈ places ↔ IsFirst declared i) ∧
    List.Forall₂ (fun i p => ∃ d, IsLast declared i d ∧ Api.parameterOf d = .ok p)
      places parameters

namespace Entries.Redeclares

variable {a b c : Entries}

theorem symm (same : Redeclares a b) : Redeclares b a :=
  ⟨same.2 ▸ same.1, same.2.symm⟩

theorem trans (first : Redeclares a b) (second : Redeclares b c) : Redeclares a c :=
  ⟨first.1, first.2.trans second.2⟩

end Entries.Redeclares

section Places

variable {declared : List Entries} {d : Entries}

theorem IsFirst.lt {i : Nat} (first : IsFirst declared i) : i < declared.length := by
  obtain ⟨own, here, -⟩ := first
  exact (List.getElem?_eq_some_iff.mp here).1

/-- A declaration more is a first one if none before it is of the same parameter. -/
theorem isFirst_append {i : Nat} :
    IsFirst (declared ++ [d]) i ↔
      IsFirst declared i ∨ i = declared.length ∧ ∀ e ∈ declared, ¬ e.Redeclares d := by
  rcases Nat.lt_trichotomy i declared.length with before | rfl | behind
  · have earlier : ∀ {j}, j ≤ i → (declared ++ [d])[j]? = declared[j]? := fun le =>
      List.getElem?_append_left (by omega)
    have other : ¬ (i = declared.length ∧ ∀ e ∈ declared, ¬ e.Redeclares d) := fun ⟨same, _⟩ =>
      by omega
    rw [or_iff_left other, IsFirst, IsFirst, earlier le_rfl]
    refine exists_congr fun own => and_congr_right fun _ => ?_
    exact forall_congr' fun j => forall_congr' fun e =>
      ⟨fun all less here => all less (by rwa [earlier less.le]),
        fun all less here => all less (by rwa [← earlier less.le])⟩
  · have last : (declared ++ [d])[declared.length]? = some d := by simp
    have other : ¬ IsFirst declared declared.length := fun first => absurd first.lt (lt_irrefl _)
    rw [or_iff_right other, IsFirst, last, and_iff_right rfl]
    constructor
    · rintro ⟨own, only, none⟩ e member
      obtain rfl : d = own := Option.some.inj only
      obtain ⟨j, here⟩ := List.mem_iff_getElem?.mp member
      have less := (List.getElem?_eq_some_iff.mp here).1
      exact none j e less (by rwa [List.getElem?_append_left less])
    · intro none
      refine ⟨d, rfl, fun j e less here => none e ?_⟩
      rw [List.getElem?_append_left less] at here
      exact List.mem_of_getElem? here
  · have absent : (declared ++ [d])[i]? = none := List.getElem?_eq_none (by simp; omega)
    refine iff_of_false ?_ ?_
    · rintro ⟨own, here, -⟩
      rw [absent] at here
      cases here
    · rintro (first | ⟨same, -⟩)
      · exact absurd first.lt (by omega)
      · omega

/-- A parameter that is declared at all is declared first somewhere. -/
theorem exists_isFirst {e : Entries} (member : e ∈ declared) (same : e.Redeclares d) :
    ∃ (i : Nat) (own : Entries), IsFirst declared i ∧ declared[i]? = some own ∧
      own.Redeclares d := by
  classical
  have somewhere : ∃ (i : Nat) (own : Entries), declared[i]? = some own ∧ own.Redeclares d := by
    obtain ⟨j, here⟩ := List.mem_iff_getElem?.mp member
    exact ⟨j, e, here, same⟩
  obtain ⟨own, here, same⟩ := Nat.find_spec somewhere
  refine ⟨_, own, ⟨own, here, fun j other less there again => ?_⟩, here, same⟩
  exact Nat.find_min somewhere less ⟨other, there, again.trans same⟩

theorem IsLast.append {i : Nat} {e : Entries} (last : IsLast declared i e)
    (other : ∀ own, declared[i]? = some own → ¬ own.Redeclares d) :
    IsLast (declared ++ [d]) i e := by
  obtain ⟨own, j, here, there, same, none⟩ := last
  have kept : ∀ {k : Nat} {x : Entries}, declared[k]? = some x →
      (declared ++ [d])[k]? = some x := fun found => by
    rwa [List.getElem?_append_left (List.getElem?_eq_some_iff.mp found).1]
  refine ⟨own, j, kept here, kept there, same, fun k x behind found => ?_⟩
  rcases Nat.lt_or_ge k declared.length with inside | outside
  · rw [List.getElem?_append_left inside] at found
    exact none k x behind found
  · rw [List.getElem?_append_right outside] at found
    obtain rfl : x = d := by
      have only := List.mem_of_getElem? found
      exact List.mem_singleton.mp only
    exact other own here

theorem IsLast.new {i : Nat} {own : Entries} (here : declared[i]? = some own)
    (same : own.Redeclares d) : IsLast (declared ++ [d]) i d := by
  have inside := (List.getElem?_eq_some_iff.mp here).1
  refine ⟨own, declared.length, by rwa [List.getElem?_append_left inside], by simp, Or.inr same,
    fun k x behind found => ?_⟩
  rw [List.getElem?_eq_none (by simp; omega)] at found
  cases found

theorem isLast_end : IsLast (declared ++ [d]) declared.length d := by
  refine ⟨d, declared.length, by simp, by simp, Or.inl rfl, fun k x behind found => ?_⟩
  rw [List.getElem?_eq_none (by simp; omega)] at found
  cases found

end Places

/-! ## Merging -/

namespace Api

/-- What a key stands for. -/
def keyIdentity (key : Option (Scalar × Scalar)) : Option (Scalar.Identity × Scalar.Identity) :=
  key.map fun (name, location) => (name.identity, location.identity)

theorem sameParameter_iff {a b : Option (Scalar × Scalar)} :
    sameParameter a b = true ↔ (keyIdentity a).isSome = true ∧ keyIdentity a = keyIdentity b := by
  cases a with
  | none => simp [sameParameter, keyIdentity]
  | some a =>
      cases b with
      | none => simp [sameParameter, keyIdentity]
      | some b => simp [sameParameter, keyIdentity, Scalar.same_iff]

theorem parameterKey_identity {entries : Entries} {key : Option (Scalar × Scalar)}
    (run : parameterKey entries = .ok key) : keyIdentity key = entries.knownAs := by
  unfold parameterKey at run
  unfold Entries.knownAs
  dsimp only at run
  split at run
  · rename_i given
    rw [Bool.and_eq_true] at given
    cases named : Entries.get? "name" entries with
    | none => simp [named, Value.truthy, Scalar.truthy] at given
    | some name =>
        cases located : Entries.get? "in" entries with
        | none => simp [located, Value.truthy, Scalar.truthy] at given
        | some location =>
            rw [named, located] at run given
            cases name <;> cases location <;> simp [Value.scalar?, illShaped] at run given ⊢
            subst run
            rename_i name location
            have given : name.truthy = true ∧ location.truthy = true := given
            simp [keyIdentity, given]
  · rename_i without
    cases run
    cases named : Entries.get? "name" entries with
    | none => rfl
    | some name =>
        cases located : Entries.get? "in" entries with
        | none => cases name <;> rfl
        | some location =>
            rw [named, located] at without
            cases name <;> cases location <;> try rfl
            rename_i name location
            have without : ¬ (name.truthy && location.truthy) = true := without
            simp only [without]
            rfl

theorem putParameter_eq {key : Option (Scalar × Scalar)} {d : Entries}
    {done : List (Option (Scalar × Scalar) × Entries)}
    (apart : done.Pairwise fun a b =>
      sameParameter a.1 key = true → sameParameter b.1 key = false) :
    putParameter key d done =
      if done.any fun entry => sameParameter entry.1 key then
        done.map fun entry => if sameParameter entry.1 key then (entry.1, d) else entry
      else done ++ [(key, d)] := by
  induction done with
  | nil => rfl
  | cons first rest ih =>
      obtain ⟨k, old⟩ := first
      obtain ⟨here, later⟩ := List.pairwise_cons.mp apart
      rw [putParameter, List.any_cons, List.map_cons]
      by_cases same : sameParameter k key = true
      · have others : rest.map (fun entry =>
            if sameParameter entry.1 key then (entry.1, d) else entry) = rest := by
          refine (List.map_congr_left fun entry member => ?_).trans rest.map_id
          rw [here entry member same]
          rfl
        simp only [same, others, if_true, Bool.true_or]
      · rw [if_neg same, if_neg same, ih later, Bool.eq_false_iff.mpr same, Bool.false_or]
        split <;> rfl

/-- The merged parameters stand at places of the list of declarations, and hold the last
declarations of what is declared there. -/
structure Placed (declared : List Entries) (places : List Nat)
    (done : List (Option (Scalar × Scalar) × Entries)) : Prop where
  increasing : places.Pairwise (· < ·)
  first : ∀ i, i ∈ places ↔ IsFirst declared i
  holds : List.Forall₂ (fun i entry => IsLast declared i entry.2 ∧
    ∃ own : Entries, declared[i]? = some own ∧ keyIdentity entry.1 = own.knownAs) places done

theorem placed_nil : Placed [] [] [] where
  increasing := .nil
  first i := iff_of_false (by simp) fun first => absurd first.lt (Nat.not_lt_zero i)
  holds := .nil

section Placed

variable {declared : List Entries} {places : List Nat} {d : Entries}
  {key : Option (Scalar × Scalar)} {done : List (Option (Scalar × Scalar) × Entries)}

/-- A merged parameter is the one that is declared if its place declares it. -/
theorem same_iff_redeclares (known : keyIdentity key = d.knownAs) {k : Option (Scalar × Scalar)}
    {own : Entries} (standsFor : keyIdentity k = own.knownAs) :
    sameParameter k key = true ↔ own.Redeclares d := by
  rw [sameParameter_iff, standsFor, known, Entries.Redeclares]

/-- No parameter is there twice. -/
theorem Placed.apart (placed : Placed declared places done) (known : keyIdentity key = d.knownAs) :
    done.Pairwise fun a b => sameParameter a.1 key = true → sameParameter b.1 key = false := by
  have each := (List.forall₂_and_left (p := fun i => i ∈ places) places done).mpr
    ⟨fun i member => member, placed.holds⟩
  refine pairwise_of_forall₂ ?_ each placed.increasing
  rintro i j entry other ⟨-, -, own, here, standsFor⟩ ⟨member, -, own', here', standsFor'⟩ less same
  obtain ⟨own'', there, earlier⟩ := (placed.first j).mp member
  obtain rfl : own' = own'' := Option.some.inj (here'.symm.trans there)
  rw [Bool.eq_false_iff, ne_eq, same_iff_redeclares known standsFor']
  intro same'
  have same := (same_iff_redeclares known standsFor).mp same
  exact earlier i own less here (same.trans same'.symm)

/-- Some place holds the parameter if any declaration was of it. -/
theorem Placed.any_iff (placed : Placed declared places done)
    (known : keyIdentity key = d.knownAs) :
    (done.any fun entry => sameParameter entry.1 key) = true ↔ ∃ e ∈ declared, e.Redeclares d := by
  rw [List.any_eq_true]
  constructor
  · rintro ⟨entry, member, same⟩
    obtain ⟨i, -, -, own, here, standsFor⟩ := exists_of_mem_right placed.holds member
    exact ⟨own, List.mem_of_getElem? here, (same_iff_redeclares known standsFor).mp same⟩
  · rintro ⟨e, member, same⟩
    obtain ⟨i, own, first, here, again⟩ := exists_isFirst member same
    obtain ⟨entry, there, -, own', here', standsFor⟩ :=
      exists_of_mem_right placed.holds.flip ((placed.first i).mpr first)
    obtain rfl : own = own' := Option.some.inj (here.symm.trans here')
    exact ⟨entry, there, (same_iff_redeclares known standsFor).mpr again⟩

/-- One declaration more. -/
theorem Placed.put (placed : Placed declared places done) (known : keyIdentity key = d.knownAs) :
    ∃ places', Placed (declared ++ [d]) places' (putParameter key d done) := by
  have inside : ∀ {i : Nat} {own : Entries}, declared[i]? = some own →
      (declared ++ [d])[i]? = some own := fun found => by
    rwa [List.getElem?_append_left (List.getElem?_eq_some_iff.mp found).1]
  rw [putParameter_eq (placed.apart known)]
  by_cases some : (done.any fun entry => sameParameter entry.1 key) = true
  · -- the places stay, and one of them holds the new declaration
    obtain ⟨e, member, same⟩ := (placed.any_iff known).mp some
    refine ⟨places, placed.increasing, fun i => ?_, ?_⟩
    · rw [isFirst_append, placed.first,
        or_iff_left fun ⟨_, without⟩ => without e member same]
    · rw [if_pos some, List.forall₂_map_right_iff]
      refine placed.holds.imp fun i entry ⟨last, own, here, standsFor⟩ => ?_
      have redeclares := same_iff_redeclares known standsFor
      by_cases again : sameParameter entry.1 key = true
      · rw [if_pos again]
        exact ⟨.new here (redeclares.mp again), own, inside here, standsFor⟩
      · rw [if_neg again]
        refine ⟨last.append fun own' here' => ?_, own, inside here, standsFor⟩
        obtain rfl : own = own' := Option.some.inj (here.symm.trans here')
        exact mt redeclares.mpr again
  · -- the declaration takes a place of its own
    have without : ∀ e ∈ declared, ¬ e.Redeclares d := fun e member same =>
      some ((placed.any_iff known).mpr ⟨e, member, same⟩)
    refine ⟨places ++ [declared.length], ?_, fun i => ?_, ?_⟩
    · refine List.pairwise_append.mpr ⟨placed.increasing, List.pairwise_singleton _ _, ?_⟩
      rintro i member j only
      rw [List.mem_singleton.mp only]
      exact ((placed.first i).mp member).lt
    · rw [isFirst_append, List.mem_append, placed.first, List.mem_singleton]
      exact or_congr_right (and_iff_left without).symm
    · rw [if_neg some]
      refine List.rel_append ?_ (.cons ⟨isLast_end, d, by simp, known⟩ .nil)
      refine placed.holds.imp fun i entry ⟨last, own, here, standsFor⟩ =>
        ⟨last.append fun own' here' => ?_, own, inside here, standsFor⟩
      exact without own' (List.mem_of_getElem? here')

end Placed

/-- Merging keeps the invariant from the first declaration to the last. -/
theorem Placed.putAll {keyed done : List (Option (Scalar × Scalar) × Entries)}
    {declared : List Entries} {places : List Nat} (placed : Placed declared places done)
    (known : ∀ entry ∈ keyed, keyIdentity entry.1 = entry.2.knownAs) :
    ∃ places', Placed (declared ++ keyed.map Prod.snd) places'
      (keyed.foldl (fun done (key, entries) => putParameter key entries done) done) := by
  induction keyed generalizing declared places done with
  | nil => exact ⟨places, by simpa using placed⟩
  | cons first rest ih =>
      obtain ⟨here, later⟩ := List.forall_mem_cons.mp known
      obtain ⟨places', next⟩ := placed.put here
      obtain ⟨places'', last⟩ := ih next later
      rw [List.append_assoc] at last
      exact ⟨places'', last⟩

theorem parameterKeys_eq_ok {items : List Value}
    {keyed : List (Option (Scalar × Scalar) × Entries)}
    (run : (items.mapM fun v => do
      let entries ← asMap v
      return (← parameterKey entries, entries)) = .ok keyed) :
    items = keyed.map (fun entry => .map entry.2) ∧
      ∀ entry ∈ keyed, keyIdentity entry.1 = entry.2.knownAs := by
  have each := Attempt.mapM_eq_ok run
  have related : ∀ v (entry : Option (Scalar × Scalar) × Entries),
      (do let entries ← asMap v
          return (← parameterKey entries, entries) : Attempt _) = .ok entry →
        v = .map entry.2 ∧ keyIdentity entry.1 = entry.2.knownAs := by
    intro v entry run
    obtain ⟨entries, isMap, run⟩ := Attempt.bind_eq_ok run
    obtain ⟨key, known, run⟩ := Attempt.bind_eq_ok run
    cases run
    exact ⟨asMap_eq_ok isMap, parameterKey_identity known⟩
  have each := each.imp related
  refine ⟨?_, fun entry member => (exists_of_mem_right each member).choose_spec.2.2⟩
  rw [← List.forall₂_eq_eq_eq, List.forall₂_map_right_iff]
  exact each.imp fun _ _ both => both.1

/-! ## Reading -/

/-- The declarations of parameters that a path or an operation has: those of its list.  Where there
is no list, or an empty text in its place, there are none. -/
def DeclaresIn (entries : Entries) (declared : List Entries) : Prop :=
  Entries.get? "parameters" entries = some (.list (declared.map .map)) ∨
    declared = [] ∧
      (Entries.get? "parameters" entries = none ∨
        Entries.get? "parameters" entries = some (.str ""))

theorem declaresIn_list {entries : Entries} {declared : List Entries}
    (found : (Entries.get? "parameters" entries).getD (.list []) = .list (declared.map .map)) :
    DeclaresIn entries declared := by
  cases there : Entries.get? "parameters" entries with
  | none =>
      rw [there] at found
      exact Or.inr ⟨List.map_eq_nil_iff.mp (Value.list.inj found).symm, Or.inl there⟩
  | some v =>
      rw [there] at found
      exact Or.inl (there.trans (congrArg some found))

theorem declaresIn_text {entries : Entries}
    (found : (Entries.get? "parameters" entries).getD (.list []) = .str "") :
    DeclaresIn entries [] := by
  cases there : Entries.get? "parameters" entries with
  | none =>
      rw [there] at found
      cases found
  | some v =>
      rw [there] at found
      exact Or.inr ⟨rfl, Or.inr (there.trans (congrArg some found))⟩

/-- The parameters of an operation are merged from the declarations of its path and its own. -/
theorem mergeParameters_merges {item operation : Entries} {parameters : List RawParameter}
    (run : mergeParameters ((Entries.get? "parameters" item).getD (.list []))
      ((Entries.get? "parameters" operation).getD (.list [])) = .ok parameters) :
    ∃ common own, DeclaresIn item common ∧ DeclaresIn operation own ∧
      Merges (common ++ own) parameters := by
  unfold mergeParameters at run
  obtain ⟨declared, appended, run⟩ := Attempt.bind_eq_ok run
  obtain ⟨keyed, keys, run⟩ := Attempt.bind_eq_ok run
  obtain ⟨items, known⟩ := parameterKeys_eq_ok keys
  rw [items] at appended
  obtain ⟨places, placed⟩ := placed_nil.putAll known
  have merges : Merges (keyed.map Prod.snd) parameters := by
    refine ⟨places, placed.increasing, placed.first, ?_⟩
    refine forall₂_comp ?_ placed.holds (Attempt.mapM_eq_ok run)
    rintro i entry p ⟨last, -⟩ read
    exact ⟨entry.2, last, read⟩
  unfold appendLists at appended
  split at appended
  · rename_i a b common own
    obtain ⟨front, back, whole, rfl, rfl⟩ := List.append_eq_map_iff.mp (Except.ok.inj appended)
    refine ⟨front.map Prod.snd, back.map Prod.snd, declaresIn_list ?_, declaresIn_list ?_, ?_⟩
    · rw [common, List.map_map]
      rfl
    · rw [own, List.map_map]
      rfl
    · rwa [← List.map_append, ← whole]
  · rename_i common own
    have none : keyed = [] := List.map_eq_nil_iff.mp (Except.ok.inj appended).symm
    rw [none] at merges
    exact ⟨[], [], declaresIn_text common, declaresIn_text own, merges⟩
  · cases appended

/-- A place of a document where an operation may be declared: a verb of a path. -/
structure Site where
  path : Scalar
  item : Entries
  verb : Verb
  operation : Entries

/-- What a path item holds under a verb, if it is a map with something in it. -/
def operationAt? (item : Entries) (verb : Verb) : Option Entries :=
  match Entries.get? verb.name item with
  | some (.map (entry :: rest)) => some (entry :: rest)
  | _ => none

/-- The operations that a path declares, in the order of the verbs. -/
def sitesOf (path : Scalar) (item : Entries) : List Site :=
  Verb.all.filterMap fun verb => (operationAt? item verb).map fun operation =>
    ⟨path, item, verb, operation⟩

/-- The operations that paths declare, in the order of the paths. -/
def sites (paths : List (Scalar × Entries)) : List Site :=
  paths.flatMap fun (path, item) => sitesOf path item

/-- The operation is what is declared at a place, its parameters merged from those of the path and
its own. -/
structure Site.Declares (site : Site) (op : Operation) : Prop where
  verb : op.verb = site.verb
  path : op.path = site.path
  id : op.id = valueAt "operationId" site.operation
  parameters : ∃ common own, DeclaresIn site.item common ∧ DeclaresIn site.operation own ∧
    Merges (common ++ own) op.parameters

theorem operationOf_eq_ok {path : Scalar} {item : Entries} {verb : Verb} {v : Value}
    {op : Operation}
    (run : operationOf path ((Entries.get? "parameters" item).getD (.list [])) verb v = .ok op) :
    ∃ operation, v = .map operation ∧ Site.Declares ⟨path, item, verb, operation⟩ op := by
  unfold operationOf at run
  obtain ⟨operation, isMap, run⟩ := Attempt.bind_eq_ok run
  obtain ⟨parameters, merged, run⟩ := Attempt.bind_eq_ok run
  obtain ⟨body, -, run⟩ := Attempt.bind_eq_ok run
  obtain ⟨responses, -, run⟩ := Attempt.bind_eq_ok run
  obtain ⟨extensions, -, run⟩ := Attempt.bind_eq_ok run
  cases run
  exact ⟨operation, asMap_eq_ok isMap, rfl, rfl, rfl, mergeParameters_merges merged⟩

theorem operationsOf_declares {path : Scalar} {v : Value} {operations : List Operation}
    (run : operationsOf path v = .ok operations) :
    ∃ item, v = .map item ∧ List.Forall₂ Site.Declares (sitesOf path item) operations := by
  unfold operationsOf at run
  obtain ⟨item, isMap, run⟩ := Attempt.bind_eq_ok run
  obtain ⟨found, each, run⟩ := Attempt.bind_eq_ok run
  cases run
  refine ⟨item, asMap_eq_ok isMap, ?_⟩
  refine List.rel_filterMap ?_ (Attempt.mapM_eq_ok each)
  intro verb result read
  show Option.Rel _ ((operationAt? item verb).map _) result
  cases here : Entries.get? verb.name item with
  | none =>
      have nothing : operationAt? item verb = none := by rw [operationAt?, here]
      rw [here] at read
      cases read
      rw [nothing]
      exact .none
  | some v =>
      rw [here] at read
      dsimp only at read
      split at read
      · rename_i given
        obtain ⟨op, made, same⟩ := Attempt.map_eq_ok read
        obtain ⟨operation, isMap, declares⟩ := operationOf_eq_ok made
        subst isMap same
        cases operation with
        | nil => cases given
        | cons entry rest =>
            have there : operationAt? item verb = some (entry :: rest) := by rw [operationAt?, here]
            rw [there]
            exact .some declares
      · rename_i without
        cases read
        have nothing : operationAt? item verb = none := by
          rw [operationAt?, here]
          cases v with
          | map entries =>
              cases entries with
              | nil => rfl
              | cons entry rest => exact absurd rfl without
          | _ => rfl
        rw [nothing]
        exact .none

/-- The paths of a document and what they hold. -/
def PathsOf (document : Value) (paths : List (Scalar × Entries)) : Prop :=
  ∃ entries, document = .map entries ∧
    (Entries.get? "paths" entries = some (.map (paths.map fun (path, item) => (path, .map item))) ∨
      paths = [] ∧ Entries.get? "paths" entries = none)

/-- The paths one by one. -/
theorem paths_declare {listed : Entries} {operations : List (List Operation)}
    (each : List.Forall₂ (fun entry ops => operationsOf entry.1 entry.2 = .ok ops)
      listed operations) :
    ∃ paths : List (Scalar × Entries), listed = paths.map (fun (path, item) => (path, .map item)) ∧
      List.Forall₂ (fun entry ops => List.Forall₂ Site.Declares (sitesOf entry.1 entry.2) ops)
        paths operations := by
  induction each with
  | nil => exact ⟨[], rfl, .nil⟩
  | @cons entry ops _ _ first _ ih =>
      obtain ⟨paths, spelled, declares⟩ := ih
      obtain ⟨path, v⟩ := entry
      obtain ⟨item, isItem, here⟩ := operationsOf_declares first
      refine ⟨(path, item) :: paths, ?_, .cons here declares⟩
      dsimp only at isItem
      rw [isItem, spelled, List.map_cons]

theorem ofDocument_declares {document : Value} {api : Api} (run : ofDocument document = .ok api) :
    ∃ paths, PathsOf document paths ∧ List.Forall₂ Site.Declares (sites paths) api.operations := by
  unfold ofDocument at run
  obtain ⟨entries, isMap, run⟩ := Attempt.bind_eq_ok run
  obtain ⟨components, -, run⟩ := Attempt.bind_eq_ok run
  obtain ⟨schemas, -, run⟩ := Attempt.bind_eq_ok run
  obtain ⟨listed, found, run⟩ := Attempt.bind_eq_ok run
  obtain ⟨operations, each, run⟩ := Attempt.bind_eq_ok run
  cases run
  obtain ⟨paths, spelled, declares⟩ := paths_declare (Attempt.mapM_eq_ok each)
  refine ⟨paths, ⟨entries, asMap_eq_ok isMap, ?_⟩, ?_⟩
  · rcases mapAt_eq_ok found with ⟨absent, none⟩ | there
    · rw [none] at spelled
      exact Or.inr ⟨List.map_eq_nil_iff.mp spelled.symm, absent⟩
    · exact Or.inl (spelled ▸ there)
  · exact List.rel_flatten (List.forall₂_map_left_iff.mpr declares)

end Api

/-! ## Keys of groups -/

namespace Naming

/-- No two names have one key: what is quoted begins as no identifier does. -/
theorem propertyKey_injective : Function.Injective propertyKey := by
  have quoted : ∀ {a b : String}, isIdentifier a.toList = true → a ≠ "'" ++ b ++ "'" := by
    rintro a b identifier rfl
    rw [String.toList_append, String.toList_append] at identifier
    cases identifier
  intro a b same
  unfold propertyKey at same
  split at same
  · rename_i plain
    split at same
    · exact same
    · exact absurd same (quoted plain)
  · split at same
    · rename_i plain
      exact absurd same.symm (quoted plain)
    · have inside := congrArg String.toList same
      simp only [String.toList_append, List.append_assoc] at inside
      exact String.toList_inj.mp (List.append_cancel_right (List.append_cancel_left inside))

end Naming

/-- The declaration groups the parameters under keys that are all different. -/
def Declaration.HasDistinctKeys (d : Declaration) (members : List Parameter) : Prop :=
  ∃ names, d.Groups members names ∧ (names.map Naming.propertyKey).Nodup

namespace Contract

section Built

variable {op : Operation} {o : Override} {c : Contract} {path query header : List Slot}
  {queryTypes headerTypes : List Declaration}

/-- The names at one location are different, and so are their keys. -/
theorem Assembled.distinctKeys
    (built : c.Assembled op o path query header queryTypes headerTypes)
    (distinct : op.HasDistinctParameters) (l : Location) {d : Declaration} {names : List String}
    (groups : d.Groups (c.parameters.inLocation l) names) :
    d.HasDistinctKeys (c.parameters.inLocation l) := by
  have apart : names.Nodup := by
    refine pairwise_of_forall₂ ?_ groups.named (built.names_differ distinct l)
    rintro p q name name' isName isName' differ rfl
    exact differ name isName isName'
  exact ⟨names, groups, apart.map Naming.propertyKey_injective⟩

end Built

/-- A contract whose operation has distinct parameters groups them under distinct keys. -/
theorem declarations_distinctKeys {op : Operation} {o : Override} {c : Contract}
    (run : (op.contract o).result = .ok c) (distinct : op.HasDistinctParameters) :
    ∀ d ∈ c.declarations,
      (d.name = Naming.pascal c.name ++ "Params" → d.HasDistinctKeys c.parameters.query) ∧
      (d.name = Naming.pascal c.name ++ "Headers" → d.HasDistinctKeys c.parameters.header) := by
  obtain ⟨path, query, header, queryTypes, headerTypes, built⟩ := op.contract_eq_ok run
  intro d member
  rcases built.declaration_cases member with ⟨name, names, groups⟩ | ⟨name, names, groups⟩ | name
  · refine ⟨fun _ => built.distinctKeys distinct .query groups, fun other => ?_⟩
    exact absurd (String.append_right_inj _ |>.mp (name.symm.trans other)) (by decide)
  · refine ⟨fun other => ?_, fun _ => built.distinctKeys distinct .header groups⟩
    exact absurd (String.append_right_inj _ |>.mp (name.symm.trans other)) (by decide)
  · refine ⟨fun other => ?_, fun other => ?_⟩
    · exact absurd (String.append_right_inj _ |>.mp (name.symm.trans other)) (by decide)
    · exact absurd (String.append_right_inj _ |>.mp (name.symm.trans other)) (by decide)

end Contract

namespace Api

/-- **What reading a document gives.**  There is one operation for every verb of every path that
holds one, in the order of the paths and of the verbs.  Its parameters are merged from those of
the path and its own: each stands where it is declared first and is what it is declared as last.
So every contract groups query parameters and headers under keys that are all different. -/
theorem ofDocument_operations {document : Value} {api : Api}
    (run : ofDocument document = .ok api) :
    (∃ paths, PathsOf document paths ∧
      List.Forall₂ Site.Declares (sites paths) api.operations) ∧
    (∀ op ∈ api.operations, ∀ o c, (op.contract o).result = .ok c → ∀ d ∈ c.declarations,
      (d.name = Naming.pascal c.name ++ "Params" → d.HasDistinctKeys c.parameters.query) ∧
      (d.name = Naming.pascal c.name ++ "Headers" → d.HasDistinctKeys c.parameters.header)) ∧
    Function.Injective Naming.propertyKey := by
  refine ⟨ofDocument_declares run, fun op among o c built => ?_, Naming.propertyKey_injective⟩
  exact Contract.declarations_distinctKeys built (ofDocument_distinct run op among)

/-- A page size that callers have to give. -/
def requiredLimit : Value :=
  .object [("name", .str "limit"), ("in", .str "query"), ("required", .bool true),
    ("schema", .object [("type", .str "integer")])]

/-- Pets by page; reading them declares one of the parameters of the path again, and an empty map
under a verb is no operation. -/
def pagedPets : Value :=
  .object [("paths", .object [("/pets", .object [
    ("parameters", .list [Contract.textParameter "limit" "query",
      Contract.textParameter "page" "query"]),
    ("post", .object []),
    ("get", .object [("operationId", .str "listPets"),
      ("parameters", .list [Contract.textParameter "X-Trace" "header", requiredLimit]),
      ("responses", .object [])])])])]

theorem ofDocument_operations_pagedPets :
    ∃ api op c, ofDocument pagedPets = .ok api ∧ api.operations = [op] ∧
      op.parameters.map (fun p => (p.name, p.required)) =
        [(.str "limit", true), (.str "page", false), (.str "X-Trace", false)] ∧
      (op.contract {}).result = .ok c ∧
      c.declarations.map Declaration.definition =
        ["\x7b limit: number; page?: string \x7d", "\x7b 'X-Trace'?: string \x7d"] ∧
      (∃ paths, PathsOf pagedPets paths ∧
        List.Forall₂ Site.Declares (sites paths) api.operations) ∧
      ∀ d ∈ c.declarations,
        (d.name = Naming.pascal c.name ++ "Params" → d.HasDistinctKeys c.parameters.query) ∧
        (d.name = Naming.pascal c.name ++ "Headers" → d.HasDistinctKeys c.parameters.header) := by
  obtain ⟨api, op, c, read, only, merged, built, grouped⟩ :
      ∃ api op c, ofDocument pagedPets = .ok api ∧ api.operations = [op] ∧
        op.parameters.map (fun p => (p.name, p.required)) =
          [(.str "limit", true), (.str "page", false), (.str "X-Trace", false)] ∧
        (op.contract {}).result = .ok c ∧
        c.declarations.map Declaration.definition =
          ["\x7b limit: number; page?: string \x7d", "\x7b 'X-Trace'?: string \x7d"] :=
    ⟨_, _, _, rfl, rfl, rfl, rfl, by decide +kernel⟩
  obtain ⟨sites, keys, -⟩ := ofDocument_operations read
  exact ⟨api, op, c, read, only, merged, built, grouped, sites,
    keys op (only ▸ List.mem_singleton_self op) {} c built⟩

end Api

end ClientForge
