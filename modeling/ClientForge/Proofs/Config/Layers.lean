/-
# ClientForge.Proofs.Config.Layers -- each setting comes from the first layer that has it

A document holds settings for all operations and, under `operations`, settings for single
ones.  For an operation there are then three layers: its extensions, its own settings, and
those for all.  `overrideFor_layered` says that each field of the result is decided by itself
(`Decided`): by the first layer that has a value under the key of the field, else by the
default.  Nothing but an extension of the wrong shape makes that fail, because own settings
are applied to the same base when the document is read.

Own settings are found under the id of the operation, as the last entry whose key is written
like it (`settingsUnder`).  An operation without an id has none, and neither has one whose id
is empty, even if the document has an entry for it (`overrideFor_not_layered`).
-/
import ClientForge.Proofs.Config.Shapes

namespace ClientForge.Config

set_option autoImplicit false

/-- A field that is decided by the first layer with a value for it, else has its default. -/
def Decided {α : Type} (layers : List (Option Value)) (means : Value → α → Prop)
    (default field : α) : Prop :=
  match layers.findSome? id with
  | some v => means v field
  | none => field = default

section Decided

variable {α : Type} {layers : List (Option Value)} {layer : Option Value}
  {means : Value → α → Prop} {default middle field other : α}

/-- One layer on top of others. -/
theorem Decided.cons (lower : Decided layers means default middle)
    (upper : Decided [layer] means middle field) :
    Decided (layer :: layers) means default field := by
  cases layer with
  | some v => exact upper
  | none =>
      obtain rfl : field = middle := upper
      exact lower

theorem Decided.unique (functional : ∀ v a b, means v a → means v b → a = b)
    (one : Decided layers means default field) (two : Decided layers means default other) :
    field = other := by
  unfold Decided at one two
  cases found : layers.findSome? id with
  | some v =>
      rw [found] at one two
      exact functional v _ _ one two
  | none =>
      rw [found] at one two
      exact one.trans two.symm

end Decided

/-! ## The layers of a document -/

/-- The map under a key, if any. -/
def mapUnder (key : String) (entries : Entries) : Entries :=
  match entries.get? key with
  | some (.map inner) => inner
  | _ => []

/-- The settings for all operations. -/
def globalSettings : Value → Entries
  | .map entries => mapUnder "override" entries
  | _ => []

/-- The settings for single operations, by key. -/
def operationSettings (data : Value) : Entries := mapUnder "operations" (globalSettings data)

/-- The last settings whose key is written like the name. -/
def settingsUnder (name : String) (operations : Entries) : Option Value :=
  (operations.reverse.find? fun entry => entry.1.shown = name).map Prod.snd

/-- The settings that a document has under a name, if any. -/
def settingsNamed (data : Value) (name : String) : Entries :=
  match settingsUnder name (operationSettings data) with
  | some (.map raw) => raw
  | _ => []

/-- The own settings of an operation with an id; an empty id is none. -/
def ownSettings (data : Value) : Option String → Entries
  | some name => if name = "" then [] else settingsNamed data name
  | none => []

/-- The three layers of the settings for an operation, field by field. -/
structure Layered (extensions own globals : Entries) (o : Override) : Prop where
  requestOptions : Decided
    [extensions.get? "x-hookify-request-options", own.get? "requestOptions",
      globals.get? "requestOptions"]
    MeansRequestOptions (.allowed true) o.requestOptions
  formData : Decided
    [extensions.get? "x-hookify-form-data", own.get? "formData", globals.get? "formData"]
    (fun v b => v = .bool b) true o.formData
  formUrlEncoded : Decided
    [extensions.get? "x-hookify-form-url-encoded", own.get? "formUrlEncoded",
      globals.get? "formUrlEncoded"]
    (fun v b => v = .bool b) true o.formUrlEncoded
  useDates : Decided [own.get? "useDates", globals.get? "useDates"]
    (fun v b => v = .bool b) false o.useDates
  mutator : Decided [own.get? "mutator", globals.get? "mutator"]
    (fun v m => mutator v = .ok m) none o.mutator
  swrOptions : Decided [own.get? "swr", globals.get? "swr"]
    (fun v s => swrOptions v = .ok s) none o.swrOptions

/-- The layers leave nothing open. -/
theorem Layered.unique {extensions own globals : Entries} {o p : Override}
    (one : Layered extensions own globals o) (two : Layered extensions own globals p) : o = p := by
  have flags : ∀ (v : Value) (a b : Bool), v = .bool a → v = .bool b → a = b := by
    rintro v a b rfl same
    cases same
    rfl
  have options : ∀ v a b, MeansRequestOptions v a → MeansRequestOptions v b → a = b := by
    intro v a b first second
    rw [← requestOptions_eq_ok_iff] at first second
    exact Except.ok.inj (first.symm.trans second)
  have requestOptions := one.requestOptions.unique options two.requestOptions
  have formData := one.formData.unique flags two.formData
  have formUrlEncoded := one.formUrlEncoded.unique flags two.formUrlEncoded
  have useDates := one.useDates.unique flags two.useDates
  have mutator := one.mutator.unique (fun v a b first second =>
    Except.ok.inj (first.symm.trans second)) two.mutator
  have swrOptions := one.swrOptions.unique (fun v a b first second =>
    Except.ok.inj (first.symm.trans second)) two.swrOptions
  cases o
  cases p
  simp_all

/-! ## Applying settings -/

/-- Settings on top of others, field by field. -/
structure Applied (base : Override) (raw : Entries) (o : Override) : Prop where
  requestOptions : Decided [raw.get? "requestOptions"] MeansRequestOptions base.requestOptions
    o.requestOptions
  formData : Decided [raw.get? "formData"] (fun v b => v = .bool b) base.formData o.formData
  formUrlEncoded : Decided [raw.get? "formUrlEncoded"] (fun v b => v = .bool b)
    base.formUrlEncoded o.formUrlEncoded
  useDates : Decided [raw.get? "useDates"] (fun v b => v = .bool b) base.useDates o.useDates
  mutator : Decided [raw.get? "mutator"] (fun v m => mutator v = .ok m) base.mutator o.mutator
  swrOptions : Decided [raw.get? "swr"] (fun v s => swrOptions v = .ok s) base.swrOptions
    o.swrOptions

theorem Applied.nothing (base : Override) : Applied base [] base :=
  ⟨rfl, rfl, rfl, rfl, rfl, rfl⟩

section Fields

variable {α : Type} {read : Value → Attempt α} {means : Value → α → Prop} {key : String}
  {base field : α}

theorem layered_map_eq_ok_iff {raw : Entries} (reads : ∀ v a, read v = .ok a ↔ means v a) :
    layered (.map raw) key read base = .ok field ↔
      Decided [raw.get? key] means base field := by
  show (match raw.get? key with
    | some v => read v
    | none => .ok base) = .ok field ↔ _
  unfold Decided
  cases raw.get? key with
  | some v => exact reads v field
  | none => exact ⟨fun same => (Except.ok.inj same).symm, fun same => same ▸ rfl⟩

theorem extended_eq_ok_iff {extensions : Entries} (reads : ∀ v a, read v = .ok a ↔ means v a) :
    extended extensions key read base = .ok field ↔
      Decided [extensions.get? key] means base field := by
  unfold extended Decided
  cases extensions.get? key with
  | some v => exact reads v field
  | none => exact ⟨fun same => (Except.ok.inj same).symm, fun same => same ▸ rfl⟩

theorem extended_failsOnly {reasons : Failure → Prop} {extensions : Entries}
    (each : ∀ v, (read v).FailsOnly reasons) :
    (extended extensions key read base).FailsOnly reasons := by
  unfold extended
  split
  · exact each _
  · exact .ok base

/-- An extension is applied unless its value has the wrong shape. -/
theorem exists_extended {extensions : Entries} (reads : ∀ v a, read v = .ok a ↔ means v a)
    (shape : ∀ v, extensions.get? key = some v → ∃ a, means v a) (base : α) :
    ∃ a, extended extensions key read base = .ok a := by
  unfold extended
  cases given : extensions.get? key with
  | some v =>
      obtain ⟨a, meant⟩ := shape v given
      exact ⟨a, (reads v a).mpr meant⟩
  | none => exact ⟨base, rfl⟩

end Fields

theorem applySettings_eq_ok {base o : Override} {raw : Entries}
    (run : applySettings base (.map raw) = .ok o) : Applied base raw o := by
  unfold applySettings at run
  obtain ⟨requestOptions, first, run⟩ := Attempt.bind_eq_ok run
  obtain ⟨formData, second, run⟩ := Attempt.bind_eq_ok run
  obtain ⟨formUrlEncoded, third, run⟩ := Attempt.bind_eq_ok run
  obtain ⟨useDates, fourth, run⟩ := Attempt.bind_eq_ok run
  obtain ⟨mutator, fifth, run⟩ := Attempt.bind_eq_ok run
  obtain ⟨swrOptions, sixth, run⟩ := Attempt.bind_eq_ok run
  cases run
  constructor
  · exact (layered_map_eq_ok_iff fun v r => requestOptions_eq_ok_iff).mp first
  · exact (layered_map_eq_ok_iff fun v b => flag_eq_ok_iff).mp second
  · exact (layered_map_eq_ok_iff fun v b => flag_eq_ok_iff).mp third
  · exact (layered_map_eq_ok_iff fun v b => flag_eq_ok_iff).mp fourth
  · exact (layered_map_eq_ok_iff fun v m => Iff.rfl).mp fifth
  · exact (layered_map_eq_ok_iff fun v s => Iff.rfl).mp sixth

theorem layered_failsOnly {reasons : Failure → Prop} {α : Type} {key : String}
    {read : Value → Attempt α} {base : α} {raw : Value}
    (found : (setting? raw key).FailsOnly reasons) (each : ∀ v, (read v).FailsOnly reasons) :
    (layered raw key read base).FailsOnly reasons := by
  refine .bind found fun found _ => ?_
  cases found with
  | some v => exact each v
  | none => exact .ok base

/-- Applying settings fails as looking a setting up does, or because of what a setting holds. -/
theorem applySettings_failsOnly_of {reasons : Failure → Prop} (base : Override) {raw : Value}
    (settings : ∀ e, Failure.IsSetting e → reasons e)
    (found : ∀ key, (setting? raw key).FailsOnly reasons) :
    (applySettings base raw).FailsOnly reasons := by
  have flags : ∀ key v, (flag key v).FailsOnly reasons :=
    fun key v => (flag_failsOnly key v).mono settings
  unfold applySettings
  refine .bind (layered_failsOnly (found _) fun v => ?_) fun _ _ => ?_
  · exact (requestOptions_failsOnly v).mono settings
  refine .bind (layered_failsOnly (found _) (flags _)) fun _ _ => ?_
  refine .bind (layered_failsOnly (found _) (flags _)) fun _ _ => ?_
  refine .bind (layered_failsOnly (found _) (flags _)) fun _ _ => ?_
  refine .bind (layered_failsOnly (found _) fun v => ?_) fun _ _ => ?_
  · exact (mutator_failsOnly v).mono settings
  refine .bind (layered_failsOnly (found _) fun v => ?_) fun _ _ => .ok _
  exact (swrOptions_failsOnly v).mono settings

theorem applySettings_failsOnly (base : Override) (raw : Entries) :
    (applySettings base (.map raw)).FailsOnly Failure.IsSetting :=
  applySettings_failsOnly_of base (fun _ setting => setting) fun key => .ok (raw.get? key)

/-! ## Reading a document -/

theorem lookup_putOperation (name id : String) (raw : Value) (operations : List (String × Value)) :
    (putOperation id raw operations).lookup name =
      if id = name then some raw else operations.lookup name := by
  induction operations with
  | nil =>
      by_cases same : id = name
      · simp [putOperation, same]
      · simp [putOperation, same, List.lookup_cons, beq_eq_false_iff_ne.mpr (Ne.symm same)]
  | cons entry rest ih =>
      obtain ⟨other, old⟩ := entry
      by_cases here : other = id
      · subst here
        by_cases same : other = name
        · simp [putOperation, same]
        · simp [putOperation, same, List.lookup_cons, beq_eq_false_iff_ne.mpr (Ne.symm same)]
      · by_cases found : other = name
        · subst found
          simp [putOperation, here, Ne.symm here]
        · simp [putOperation, here, List.lookup_cons, ih,
            beq_eq_false_iff_ne.mpr (Ne.symm found)]

/-- Of settings whose keys are written alike, the last ones are kept. -/
theorem lookup_foldl_putOperation (name : String) (operations : Entries)
    (done : List (String × Value)) :
    (operations.foldl (fun done entry => putOperation entry.1.shown entry.2 done) done).lookup
      name = (settingsUnder name operations).or (done.lookup name) := by
  induction operations generalizing done with
  | nil => rfl
  | cons entry rest ih =>
      rw [List.foldl_cons, ih, lookup_putOperation]
      unfold settingsUnder
      rw [List.reverse_cons, List.find?_append]
      cases later : rest.reverse.find? fun entry => entry.1.shown = name with
      | some found => simp
      | none =>
          by_cases here : entry.1.shown = name
          · simp [here]
          · simp [here]

theorem checkOperation_map (override : Override) (id : Scalar) (raw : Entries) :
    checkOperation override id (.map raw) =
      match raw.get? "mutator" with
      | some (.atom .null) => rejectSetting (.nullMutator id.shown)
      | _ => discard (applySettings override (.map raw)) := rfl

/-- Own settings that pass the check can be applied, and do not take a mutator away. -/
theorem checkOperation_eq_ok {override : Override} {id : Scalar} {raw : Entries}
    (run : checkOperation override id (.map raw) = .ok ()) :
    raw.get? "mutator" ≠ some .null ∧ ∃ o, applySettings override (.map raw) = .ok o := by
  rw [checkOperation_map] at run
  split at run
  · cases run
  · rename_i given
    refine ⟨fun null => given null, ?_⟩
    cases applied : applySettings override (.map raw) with
    | ok o => exact ⟨o, rfl⟩
    | error e =>
        rw [applied] at run
        cases run

theorem forM_eq_ok {α : Type} {f : α → Attempt PUnit} {xs : List α}
    (run : xs.forM f = .ok ⟨⟩) : ∀ x ∈ xs, f x = .ok ⟨⟩ := by
  induction xs with
  | nil => simp
  | cons x rest ih =>
      have run : (f x >>= fun _ => rest.forM f) = .ok ⟨⟩ := run
      obtain ⟨_, first, later⟩ := Attempt.bind_eq_ok run
      exact List.forall_mem_cons.mpr ⟨first, ih later⟩

theorem mapUnder_eq {key : String} {entries inner : Entries}
    (given : (entries.get? key).getD (.map []) = .map inner) : mapUnder key entries = inner := by
  unfold mapUnder
  cases found : entries.get? key with
  | none =>
      rw [found] at given
      cases given
      rfl
  | some v =>
      rw [found] at given
      obtain rfl : v = .map inner := given
      rfl

/-- What a document with settings holds, once it has been read. -/
theorem ofValue_eq_ok {data : Value} {config : Config} (run : ofValue data = .ok config) :
    applySettings {} (.map (globalSettings data)) = .ok config.override ∧
      (∀ entry ∈ operationSettings data, ∃ raw : Entries, entry.2 = .map raw ∧
        raw.get? "mutator" ≠ some .null ∧
        ∃ o, applySettings config.override (.map raw) = .ok o) ∧
      ∀ name, config.operations.lookup name = settingsUnder name (operationSettings data) := by
  cases data with
  | atom a => cases run
  | list items => cases run
  | map entries =>
      unfold ofValue at run
      obtain ⟨fields, same, read⟩ := Attempt.bind_eq_ok run
      obtain rfl : entries = fields := Except.ok.inj same
      clear run
      split at read
      · rename_i raw given
        have globals : globalSettings (.map entries) = raw := mapUnder_eq given
        split at read
        · rename_i operations listed
          have single : operationSettings (.map entries) = operations := by
            unfold operationSettings
            rw [globals]
            exact mapUnder_eq listed
          split at read
          · rename_i maps
            obtain ⟨override, applied, read⟩ := Attempt.bind_eq_ok read
            obtain ⟨_, checked, read⟩ := Attempt.bind_eq_ok read
            cases read
            rw [globals, single]
            refine ⟨applied, fun entry member => ?_, fun name => ?_⟩
            · have isMap := List.all_eq_true.mp maps entry member
              obtain ⟨k, v⟩ := entry
              cases v with
              | map own => exact ⟨own, rfl, checkOperation_eq_ok (forM_eq_ok checked _ member)⟩
              | atom a => cases isMap
              | list items => cases isMap
            · rw [lookup_foldl_putOperation]
              simp
          · cases read
        · cases read
      · cases read

/-! ## The settings for an operation -/

/-- Settings that do not say null keep a mutator. -/
theorem Applied.keeps_mutator {base o : Override} {raw : Entries} (applied : Applied base raw o)
    (kept : raw.get? "mutator" ≠ some .null) (some : base.mutator.isSome) : o.mutator.isSome := by
  have decided := applied.mutator
  unfold Decided at decided
  cases given : raw.get? "mutator" with
  | none =>
      rw [given] at decided
      have same : o.mutator = base.mutator := decided
      rw [same]
      exact some
  | some v =>
      rw [given] at decided
      have read : Config.mutator v = .ok o.mutator := decided
      cases result : o.mutator with
      | some m => rfl
      | none =>
          rw [result, mutator_eq_none_iff] at read
          exact absurd (by rw [given, read]) kept

theorem settingsUnder_eq_some {name : String} {operations : Entries} {v : Value}
    (found : settingsUnder name operations = some v) :
    ∃ entry ∈ operations, entry.2 = v := by
  unfold settingsUnder at found
  obtain ⟨entry, first, same⟩ := Option.map_eq_some_iff.mp found
  exact ⟨entry, List.mem_reverse.mp (List.mem_of_find?_eq_some first), same⟩

/-- The settings for an operation that has a name. -/
theorem settingsFor_named (config : Config) {name : String} (named : name ≠ "") :
    settingsFor config (some (.str name)) =
      match config.operations.lookup name with
      | none => .ok config.override
      | some raw => do
        let override ← applySettings config.override raw
        if config.hasGlobalMutator && override.mutator.isNone then
          rejectSetting (.droppedMutator name)
        else return override := by
  have looksUp : ¬ (!Value.truthy (.str name)) = true := by
    simp [Value.truthy, Scalar.truthy, named]
  exact if_neg looksUp

/-- Without its extensions, an operation of a document that was read has settings. -/
theorem exists_settingsFor {data : Value} {config : Config} (read : ofValue data = .ok config)
    (id : Option String) :
    ∃ o, settingsFor config (id.map .str) = .ok o ∧
      Applied config.override (ownSettings data id) o := by
  obtain ⟨-, checked, found⟩ := ofValue_eq_ok read
  cases id with
  | none => exact ⟨config.override, rfl, .nothing _⟩
  | some name =>
      by_cases unnamed : name = ""
      · subst unnamed
        exact ⟨config.override, rfl, .nothing _⟩
      · have own : ownSettings data (some name) = settingsNamed data name := if_neg unnamed
        rw [Option.map_some, settingsFor_named config unnamed, found name, own]
        unfold settingsNamed
        cases under : settingsUnder name (operationSettings data) with
        | none => exact ⟨config.override, rfl, .nothing _⟩
        | some v =>
            obtain ⟨entry, member, rfl⟩ := settingsUnder_eq_some under
            obtain ⟨raw, isMap, kept, o, applied⟩ := checked entry member
            have layer := applySettings_eq_ok applied
            have stays : (config.hasGlobalMutator && o.mutator.isNone) = false := by
              cases global : config.hasGlobalMutator with
              | false => rfl
              | true =>
                  have some := layer.keeps_mutator kept global
                  simp [some]
            refine ⟨o, ?_, ?_⟩
            · rw [isMap]
              show (applySettings config.override (.map raw) >>= _) = _
              rw [applied]
              show (if (config.hasGlobalMutator && o.mutator.isNone) = true then _ else _) = _
              rw [stays]
              rfl
            · rw [isMap]
              exact layer

/-! ## All layers together -/

/-- Extensions whose values have the right shapes. -/
structure WellTyped (extensions : Entries) : Prop where
  requestOptions : ∀ v, extensions.get? "x-hookify-request-options" = some v →
    ∃ r, MeansRequestOptions v r
  formData : ∀ v, extensions.get? "x-hookify-form-data" = some v → ∃ b, v = .bool b
  formUrlEncoded : ∀ v, extensions.get? "x-hookify-form-url-encoded" = some v → ∃ b, v = .bool b

/-- Entries with the same values under some keys. -/
def Agree (keys : List String) (one two : Entries) : Prop :=
  ∀ key ∈ keys, one.get? key = two.get? key

/-- The keys of settings. -/
def settingKeys : List String :=
  ["requestOptions", "formData", "formUrlEncoded", "useDates", "mutator", "swr"]

/-- The keys of extensions that are settings. -/
def extensionKeys : List String :=
  ["x-hookify-request-options", "x-hookify-form-data", "x-hookify-form-url-encoded"]

theorem WellTyped.congr {extensions extensions' : Entries}
    (agree : Agree extensionKeys extensions extensions') (typed : WellTyped extensions) :
    WellTyped extensions' := by
  simp only [Agree, extensionKeys, List.forall_mem_cons] at agree
  obtain ⟨requestOptions, formData, formUrlEncoded, -⟩ := agree
  constructor
  · rw [← requestOptions]
    exact typed.requestOptions
  · rw [← formData]
    exact typed.formData
  · rw [← formUrlEncoded]
    exact typed.formUrlEncoded

/-- Applying extensions fails as finding the settings does, or because of what one holds. -/
theorem overrideFor_failsOnly_of {reasons : Failure → Prop} {config : Config} {id : Option Value}
    (settings : ∀ e, Failure.IsSetting e → reasons e)
    (found : (settingsFor config id).FailsOnly reasons) (extensions : Entries) :
    (overrideFor config id extensions).FailsOnly reasons := by
  unfold overrideFor
  refine .bind found fun base _ => ?_
  refine .bind (extended_failsOnly fun v => ?_) fun _ _ => ?_
  · exact (requestOptions_failsOnly v).mono settings
  refine .bind (extended_failsOnly fun v => (flag_failsOnly _ v).mono settings) fun _ _ => ?_
  exact .bind (extended_failsOnly fun v => (flag_failsOnly _ v).mono settings) fun _ _ => .ok _

/-- Applying extensions fails only because of the settings, if anything does. -/
theorem overrideFor_failsOnly {config : Config} {id : Option Value}
    (settings : (settingsFor config id).FailsOnly Failure.IsSetting) (extensions : Entries) :
    (overrideFor config id extensions).FailsOnly Failure.IsSetting :=
  overrideFor_failsOnly_of (fun _ setting => setting) settings extensions

theorem exists_overrideFor {data : Value} {config : Config} (read : ofValue data = .ok config)
    (id : Option String) {extensions : Entries} (typed : WellTyped extensions) :
    ∃ o, overrideFor config (id.map .str) extensions = .ok o := by
  obtain ⟨base, settings, -⟩ := exists_settingsFor read id
  have flags : ∀ key v b, flag key v = .ok b ↔ v = .bool b := fun key v b => flag_eq_ok_iff
  obtain ⟨options, first⟩ := exists_extended (fun v r => requestOptions_eq_ok_iff)
    typed.requestOptions base.requestOptions
  obtain ⟨formData, second⟩ := exists_extended (flags "x-hookify-form-data") typed.formData
    base.formData
  obtain ⟨formUrlEncoded, third⟩ := exists_extended (flags "x-hookify-form-url-encoded")
    typed.formUrlEncoded base.formUrlEncoded
  refine ⟨{ base with requestOptions := options, formData, formUrlEncoded }, ?_⟩
  simp only [overrideFor, settings, first, second, third, bind, Except.bind, pure, Except.pure]

/-- The three steps of applying extensions. -/
theorem overrideFor_eq_ok {config : Config} {id : Option Value} {extensions : Entries}
    {o : Override} (run : overrideFor config id extensions = .ok o) :
    ∃ base, settingsFor config id = .ok base ∧
      Decided [extensions.get? "x-hookify-request-options"] MeansRequestOptions
        base.requestOptions o.requestOptions ∧
      Decided [extensions.get? "x-hookify-form-data"] (fun v b => v = .bool b)
        base.formData o.formData ∧
      Decided [extensions.get? "x-hookify-form-url-encoded"] (fun v b => v = .bool b)
        base.formUrlEncoded o.formUrlEncoded ∧
      o.useDates = base.useDates ∧ o.mutator = base.mutator ∧
      o.swrOptions = base.swrOptions := by
  unfold overrideFor at run
  obtain ⟨base, settings, run⟩ := Attempt.bind_eq_ok run
  obtain ⟨requestOptions, first, run⟩ := Attempt.bind_eq_ok run
  obtain ⟨formData, second, run⟩ := Attempt.bind_eq_ok run
  obtain ⟨formUrlEncoded, third, run⟩ := Attempt.bind_eq_ok run
  cases run
  refine ⟨base, settings, ?_, ?_, ?_, rfl, rfl, rfl⟩
  · exact (extended_eq_ok_iff fun v r => requestOptions_eq_ok_iff).mp first
  · exact (extended_eq_ok_iff fun v b => flag_eq_ok_iff).mp second
  · exact (extended_eq_ok_iff fun v b => flag_eq_ok_iff).mp third

theorem Decided.exists_means {α : Type} {layer : Option Value} {means : Value → α → Prop}
    {default field : α} (decided : Decided [layer] means default field) :
    ∀ v, layer = some v → ∃ a, means v a := by
  rintro v rfl
  exact ⟨field, decided⟩

/-- What has a result is well typed, and the result is that of the layers. -/
theorem overrideFor_eq_ok_layered {data : Value} {config : Config}
    (read : ofValue data = .ok config) {id : Option String} {extensions : Entries} {o : Override}
    (run : overrideFor config (id.map .str) extensions = .ok o) :
    WellTyped extensions ∧
      Layered extensions (ownSettings data id) (globalSettings data) o := by
  obtain ⟨base, settings, options, formData, formUrlEncoded, useDates, mutator, swr⟩ :=
    overrideFor_eq_ok run
  refine ⟨⟨options.exists_means, formData.exists_means, formUrlEncoded.exists_means⟩, ?_⟩
  obtain ⟨own, same, middle⟩ := exists_settingsFor read id
  obtain rfl : own = base := Except.ok.inj (same.symm.trans settings)
  have lowest := applySettings_eq_ok (ofValue_eq_ok read).1
  constructor
  · exact (lowest.requestOptions.cons middle.requestOptions).cons options
  · exact (lowest.formData.cons middle.formData).cons formData
  · exact (lowest.formUrlEncoded.cons middle.formUrlEncoded).cons formUrlEncoded
  · rw [useDates]
    exact lowest.useDates.cons middle.useDates
  · rw [mutator]
    exact lowest.mutator.cons middle.mutator
  · rw [swr]
    exact lowest.swrOptions.cons middle.swrOptions

/-- Layers that agree on the keys of settings decide alike. -/
theorem Layered.congr {extensions own globals extensions' own' globals' : Entries} {o : Override}
    (extended : Agree extensionKeys extensions extensions') (owned : Agree settingKeys own own')
    (shared : Agree settingKeys globals globals') (layers : Layered extensions own globals o) :
    Layered extensions' own' globals' o := by
  simp only [Agree, extensionKeys, List.forall_mem_cons] at extended
  simp only [Agree, settingKeys, List.forall_mem_cons] at owned shared
  obtain ⟨requestOptions, formData, formUrlEncoded, -⟩ := extended
  obtain ⟨own₁, own₂, own₃, own₄, own₅, own₆, -⟩ := owned
  obtain ⟨global₁, global₂, global₃, global₄, global₅, global₆, -⟩ := shared
  constructor
  · rw [← requestOptions, ← own₁, ← global₁]
    exact layers.requestOptions
  · rw [← formData, ← own₂, ← global₂]
    exact layers.formData
  · rw [← formUrlEncoded, ← own₃, ← global₃]
    exact layers.formUrlEncoded
  · rw [← own₄, ← global₄]
    exact layers.useDates
  · rw [← own₅, ← global₅]
    exact layers.mutator
  · rw [← own₆, ← global₆]
    exact layers.swrOptions

/-- The settings for an operation of a document that was read.  They are missing only because
of an extension of the wrong shape; otherwise the layers decide each field on its own, and no
key but those of the fields has any effect. -/
theorem overrideFor_layered {data : Value} {config : Config} (read : ofValue data = .ok config)
    (id : Option String) (extensions : Entries) :
    (overrideFor config (id.map .str) extensions).FailsOnly Failure.IsSetting ∧
    ((∃ e, overrideFor config (id.map .str) extensions = .error e) ↔ ¬ WellTyped extensions) ∧
    (∀ o, overrideFor config (id.map .str) extensions = .ok o →
      Layered extensions (ownSettings data id) (globalSettings data) o) ∧
    ∀ data' config' id' extensions', ofValue data' = .ok config' →
      Agree extensionKeys extensions extensions' →
      Agree settingKeys (ownSettings data id) (ownSettings data' id') →
      Agree settingKeys (globalSettings data) (globalSettings data') →
      ∀ o, overrideFor config (id.map .str) extensions = .ok o →
        overrideFor config' (id'.map .str) extensions' = .ok o := by
  obtain ⟨base, settings, -⟩ := exists_settingsFor read id
  have fails : (settingsFor config (id.map .str)).FailsOnly Failure.IsSetting := by
    rw [settings]
    exact .ok base
  refine ⟨overrideFor_failsOnly fails extensions, ⟨?_, ?_⟩, ?_, ?_⟩
  · rintro ⟨e, failed⟩ typed
    obtain ⟨o, run⟩ := exists_overrideFor read id typed
    cases failed.symm.trans run
  · intro illTyped
    cases run : overrideFor config (id.map .str) extensions with
    | error e => exact ⟨e, rfl⟩
    | ok o => exact absurd (overrideFor_eq_ok_layered read run).1 illTyped
  · exact fun o run => (overrideFor_eq_ok_layered read run).2
  · intro data' config' id' extensions' read' extended owned shared o run
    obtain ⟨typed, layers⟩ := overrideFor_eq_ok_layered read run
    obtain ⟨o', run'⟩ := exists_overrideFor read' id' (typed.congr extended)
    have same := (layers.congr extended owned shared).unique
      (overrideFor_eq_ok_layered read' run').2
    rw [run', same]

/-- Settings with two entries for the operation `200`. -/
def twiceConfigured : Value :=
  .object [("override", .object [
    ("mutator", .object [("name", .str "send"), ("path", .str "./send")]),
    ("useDates", .bool true),
    ("operations", .map [
      (.int 200, .object [("useDates", .bool false), ("formUrlEncoded", .bool false)]),
      (.str "200", .object [("formData", .bool false), ("requestOptions", .bool false)])])])]

/-- The later entry counts, and the extension goes before it. -/
theorem overrideFor_layered_twiceConfigured :
    ∃ config, ofValue twiceConfigured = .ok config ∧
      (∃ e, overrideFor config (some (.str "200")) [(.str "x-hookify-form-data", .int 1)] =
        .error e) ∧
      ∃ o, overrideFor config (some (.str "200")) [(.str "x-hookify-form-data", .bool true)] =
          .ok o ∧
        Layered [(.str "x-hookify-form-data", .bool true)]
          (ownSettings twiceConfigured (some "200")) (globalSettings twiceConfigured) o ∧
        o.formData = true ∧ o.formUrlEncoded = true ∧ o.useDates = true ∧
        o.takesRequestOptions = false ∧ o.mutator.isSome = true := by
  have runs : ∃ config, ofValue twiceConfigured = .ok config ∧
      ∃ o, overrideFor config (some (.str "200")) [(.str "x-hookify-form-data", .bool true)] =
          .ok o ∧
        o.formData = true ∧ o.formUrlEncoded = true ∧ o.useDates = true ∧
        o.takesRequestOptions = false ∧ o.mutator.isSome = true :=
    ⟨_, rfl, _, rfl, rfl, rfl, rfl, rfl, rfl⟩
  obtain ⟨config, read, o, run, fields⟩ := runs
  refine ⟨config, read, ?_, o, run, ?_, fields⟩
  · refine (overrideFor_layered read (some "200") _).2.1.mpr ?_
    intro typed
    obtain ⟨b, flag⟩ := typed.formData (.int 1) rfl
    cases flag
  · exact (overrideFor_layered read (some "200") _).2.2.1 o run

/-- Settings for an operation whose id is empty. -/
def unnamedConfigured : Value :=
  .object [("override", .object [
    ("operations", .object [("", .object [("requestOptions", .bool false)])])])]

/-- The settings under an empty name are not the own settings of an operation whose id is
empty. -/
theorem overrideFor_not_layered :
    ∃ config, ofValue unnamedConfigured = .ok config ∧
      ∃ o, overrideFor config (some (.str "")) [] = .ok o ∧
        ¬ Layered [] (settingsNamed unnamedConfigured "") (globalSettings unnamedConfigured)
          o := by
  refine ⟨_, rfl, _, rfl, fun layers => ?_⟩
  have decided := layers.requestOptions
  have means : MeansRequestOptions (.bool false) (.allowed true) := decided
  cases means

end ClientForge.Config
