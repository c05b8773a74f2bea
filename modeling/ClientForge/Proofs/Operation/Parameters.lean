/-
# ClientForge.Proofs.Operation.Parameters -- what parameters are known by

A parameter that is declared for a path and again for one of its operations is one parameter of
this operation.  So whatever a document declares, no two parameters of an operation have one
name and one location (`ofDocument_distinct`): a key that is there keeps its place, and only a
new one goes to the end (`putParameter_keys`).
-/
import ClientForge.Proofs.Operation.Schemas

namespace ClientForge

set_option autoImplicit false

/-- The parameter has this name and this location. -/
def RawParameter.IsAt (p : RawParameter) (name location : String) : Prop :=
  p.name = .str name ∧ p.location = .str location

/-- Two parameters do not have one name and one location. -/
def RawParameter.Differs (p q : RawParameter) : Prop :=
  ∀ name location, name ≠ "" → location ≠ "" → p.IsAt name location → ¬ q.IsAt name location

/-- No two parameters of the operation have one name and one location. -/
def Operation.HasDistinctParameters (op : Operation) : Prop :=
  op.parameters.Pairwise RawParameter.Differs

namespace Api

/-- The key of a name and a location. -/
abbrev keyOf (name location : String) : Option (Scalar × Scalar) :=
  some (.str name, .str location)

theorem sameParameter_text {key : Option (Scalar × Scalar)} {name location : String} :
    sameParameter (keyOf name location) key = true ↔ key = keyOf name location := by
  cases key with
  | none => simp [sameParameter]
  | some k =>
      obtain ⟨n, l⟩ := k
      simp [sameParameter, Scalar.str_same]

theorem sameParameter_of_text {key : Option (Scalar × Scalar)} {name location : String} :
    sameParameter key (keyOf name location) = true ↔ key = keyOf name location := by
  cases key with
  | none => simp [sameParameter]
  | some k =>
      obtain ⟨n, l⟩ := k
      simp [sameParameter, Scalar.same_str]

/-- A parameter that is known by a name and a location has them as its key. -/
def Keyed (entry : Option (Scalar × Scalar) × Entries) : Prop :=
  ∀ p name location, name ≠ "" → location ≠ "" → parameterOf entry.2 = .ok p →
    p.IsAt name location → entry.1 = keyOf name location

/-- No two keys are one name and one location. -/
def KeysApart (keys : List (Option (Scalar × Scalar))) : Prop :=
  keys.Pairwise fun a b => ∀ name location, a = keyOf name location → b ≠ keyOf name location

theorem parameterKey_text {entries : Entries} {key : Option (Scalar × Scalar)}
    (run : parameterKey entries = .ok key) : Keyed (key, entries) := by
  intro p name location named located read at_
  unfold parameterOf at read
  obtain ⟨content, -, read⟩ := Attempt.bind_eq_ok read
  cases read
  obtain ⟨isName, isLocation⟩ := at_
  have found : ∀ {field text : String}, text ≠ "" →
      (Entries.get? field entries).getD (.str "") = .str text →
      (Entries.get? field entries).getD .null = .str text := by
    intro field text given same
    cases here : Entries.get? field entries with
    | none =>
        rw [here] at same
        exact absurd (Scalar.str.inj (Value.atom.inj same)).symm given
    | some v =>
        rw [here] at same
        exact same
  have shown : ∀ {text : String}, text ≠ "" → (Value.str text).truthy = true := by
    intro text given
    simpa [Value.truthy, Scalar.truthy] using given
  unfold parameterKey at run
  rw [found named isName, found located isLocation] at run
  simp only [shown named, shown located, Bool.and_self, if_true] at run
  exact (Except.ok.inj run).symm

/-- A key that is there keeps its place, and a new one goes to the end. -/
theorem putParameter_keys (key : Option (Scalar × Scalar)) (entries : Entries)
    (done : List (Option (Scalar × Scalar) × Entries)) :
    (putParameter key entries done).map Prod.fst = done.map Prod.fst ∨
      (putParameter key entries done).map Prod.fst = done.map Prod.fst ++ [key] ∧
        ∀ k ∈ done.map Prod.fst, sameParameter k key = false := by
  induction done with
  | nil => exact Or.inr ⟨rfl, fun k member => by cases member⟩
  | cons first rest ih =>
      obtain ⟨k, old⟩ := first
      rw [putParameter]
      split
      · exact Or.inl rfl
      · rename_i other
        rcases ih with kept | ⟨added, new⟩
        · exact Or.inl (by rw [List.map_cons, kept]; rfl)
        · refine Or.inr ⟨by rw [List.map_cons, added]; rfl, ?_⟩
          exact List.forall_mem_cons.mpr ⟨Bool.eq_false_iff.mpr other, new⟩

theorem putParameter_apart {key : Option (Scalar × Scalar)} {entries : Entries}
    {done : List (Option (Scalar × Scalar) × Entries)} (apart : KeysApart (done.map Prod.fst)) :
    KeysApart ((putParameter key entries done).map Prod.fst) := by
  rcases putParameter_keys key entries done with kept | ⟨added, new⟩
  · rwa [kept]
  · rw [added]
    refine List.pairwise_append.mpr ⟨apart, List.pairwise_singleton _ _, ?_⟩
    rintro k member b only name location rfl rfl
    obtain rfl : keyOf name location = key := List.mem_singleton.mp only
    have same := sameParameter_text.mpr (rfl : keyOf name location = keyOf name location)
    rw [new _ member] at same
    cases same

/-- Whatever is put under a key that is a name and a location is known by them. -/
theorem putParameter_keyed {key : Option (Scalar × Scalar)} {entries : Entries}
    {done : List (Option (Scalar × Scalar) × Entries)} (each : ∀ entry ∈ done, Keyed entry)
    (own : Keyed (key, entries)) : ∀ entry ∈ putParameter key entries done, Keyed entry := by
  induction done with
  | nil => exact List.forall_mem_singleton.mpr own
  | cons first rest ih =>
      obtain ⟨k, old⟩ := first
      obtain ⟨here, later⟩ := List.forall_mem_cons.mp each
      rw [putParameter]
      split
      · rename_i same
        refine List.forall_mem_cons.mpr ⟨?_, later⟩
        intro p name location named located read at_
        obtain rfl : key = keyOf name location := own p name location named located read at_
        exact sameParameter_of_text.mp same
      · exact List.forall_mem_cons.mpr ⟨here, ih later⟩

theorem putParameters_apart {keyed done : List (Option (Scalar × Scalar) × Entries)}
    (own : ∀ entry ∈ keyed, Keyed entry) (each : ∀ entry ∈ done, Keyed entry)
    (apart : KeysApart (done.map Prod.fst)) :
    (∀ entry ∈ keyed.foldl (fun done (key, entries) => putParameter key entries done) done,
        Keyed entry) ∧
      KeysApart ((keyed.foldl (fun done (key, entries) => putParameter key entries done)
        done).map Prod.fst) := by
  induction keyed generalizing done with
  | nil => exact ⟨each, apart⟩
  | cons first rest ih =>
      obtain ⟨here, later⟩ := List.forall_mem_cons.mp own
      exact ih later (putParameter_keyed each here) (putParameter_apart apart)

theorem mergeParameters_distinct {common specific : Value} {parameters : List RawParameter}
    (run : mergeParameters common specific = .ok parameters) :
    parameters.Pairwise RawParameter.Differs := by
  unfold mergeParameters at run
  obtain ⟨declared, -, run⟩ := Attempt.bind_eq_ok run
  obtain ⟨keyed, keys, run⟩ := Attempt.bind_eq_ok run
  have own : ∀ entry ∈ keyed, Keyed entry := by
    intro entry member
    obtain ⟨v, -, read⟩ := exists_of_mem_right (Attempt.mapM_eq_ok keys) member
    obtain ⟨entries, -, read⟩ := Attempt.bind_eq_ok read
    obtain ⟨key, known, read⟩ := Attempt.bind_eq_ok read
    cases read
    exact parameterKey_text known
  obtain ⟨each, apart⟩ := putParameters_apart own
    (fun entry (none : entry ∈ []) => by cases none) .nil
  refine pairwise_of_forall₂ ?_ ((List.forall₂_and_left _ _).mpr ⟨each, Attempt.mapM_eq_ok run⟩)
    (List.pairwise_map.mp apart)
  intro entry other p q ⟨here, read⟩ ⟨there, read'⟩ keys name location named located at_ again
  exact keys name location (here p name location named located read at_)
    (there q name location named located read' again)

theorem operationsOf_distinct {path : Scalar} {item : Value} {operations : List Operation}
    (run : operationsOf path item = .ok operations) {op : Operation} (among : op ∈ operations) :
    op.HasDistinctParameters := by
  unfold operationsOf at run
  obtain ⟨entries, -, run⟩ := Attempt.bind_eq_ok run
  obtain ⟨found, each, run⟩ := Attempt.bind_eq_ok run
  cases run
  obtain ⟨_, listed, rfl⟩ := List.mem_filterMap.mp among
  obtain ⟨verb, -, read⟩ := exists_of_mem_right (Attempt.mapM_eq_ok each) listed
  split at read
  · split at read
    · obtain ⟨other, read, same⟩ := Attempt.map_eq_ok read
      cases same
      unfold operationOf at read
      obtain ⟨entries, -, read⟩ := Attempt.bind_eq_ok read
      obtain ⟨parameters, merged, read⟩ := Attempt.bind_eq_ok read
      obtain ⟨body, -, read⟩ := Attempt.bind_eq_ok read
      obtain ⟨responses, -, read⟩ := Attempt.bind_eq_ok read
      obtain ⟨extensions, -, read⟩ := Attempt.bind_eq_ok read
      cases read
      exact mergeParameters_distinct merged
    · cases read
  · cases read

/-- **The parameters of an operation have distinct names and locations**, whatever its document
declares. -/
theorem ofDocument_distinct {document : Value} {api : Api} (run : ofDocument document = .ok api) :
    ∀ op ∈ api.operations, op.HasDistinctParameters := by
  unfold ofDocument at run
  obtain ⟨entries, -, run⟩ := Attempt.bind_eq_ok run
  obtain ⟨components, -, run⟩ := Attempt.bind_eq_ok run
  obtain ⟨schemas, -, run⟩ := Attempt.bind_eq_ok run
  obtain ⟨paths, -, run⟩ := Attempt.bind_eq_ok run
  obtain ⟨operations, each, run⟩ := Attempt.bind_eq_ok run
  cases run
  intro op among
  obtain ⟨group, listed, among⟩ := List.mem_flatten.mp among
  obtain ⟨item, -, read⟩ := exists_of_mem_right (Attempt.mapM_eq_ok each) listed
  exact operationsOf_distinct read among

end Api

end ClientForge
