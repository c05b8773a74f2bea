/-
# ClientForge.Proofs.Client.Transport -- who sends the requests

If the settings name a mutator for all operations, no operation loses it: settings for one
operation may exchange the mutator, and none can take it away (`overrideFor_keeps_mutator`).
So flavors may then leave axios out of the packages that they offer, and that is safe: the code
of an operation with a mutator mentions what axios exports only where its contract brings the
name along (`Gives`) -- because an operation, a parameter or a model is called so.

If there is no such mutator, axios is offered, and an operation without a mutator of its own
imports it, whatever the other operations of its file do.
-/
import ClientForge.Package
import ClientForge.Proofs.Client.Failures
import ClientForge.Proofs.Client.Imports
import ClientForge.Proofs.Client.Wording
import ClientForge.Proofs.Config.Layers

namespace ClientForge

set_option autoImplicit false

open Text (Avoids IsName StartsOpen EndsOpen Separates StandsAlone)

/-! ## Settings -/

namespace Config

/-- The settings for single operations are maps, checked or not. -/
def HasMaps (config : Config) : Prop :=
  ∀ entry ∈ config.operations, ∃ raw : Entries, entry.2 = .map raw

variable {config : Config} {o : Override}

theorem settingsFor_keeps_mutator (global : config.hasGlobalMutator = true) {id : Option Value}
    (run : settingsFor config id = .ok o) : o.mutator.isSome = true := by
  have unchanged : ∀ {o}, Except.ok config.override = (.ok o : Attempt Override) →
      o.mutator.isSome = true := by
    intro o same
    rw [← Except.ok.inj same]
    exact global
  cases id with
  | none => exact unchanged run
  | some v =>
      unfold settingsFor at run
      dsimp only at run
      split at run
      · exact unchanged run
      · split at run
        · split at run
          · exact unchanged run
          · obtain ⟨own, -, run⟩ := Attempt.bind_eq_ok run
            split at run
            · cases run
            · rename_i kept
              obtain rfl : own = o := Except.ok.inj run
              rw [global, Bool.true_and, Option.isNone_iff_eq_none] at kept
              exact Option.isSome_iff_ne_none.mpr kept
        · exact unchanged run
        · cases run

/-- No operation loses a mutator for all operations. -/
theorem overrideFor_keeps_mutator (global : config.hasGlobalMutator = true) {id : Option Value}
    {extensions : Entries} (run : overrideFor config id extensions = .ok o) :
    o.mutator.isSome = true := by
  obtain ⟨base, settings, -, -, -, -, mutator, -⟩ := overrideFor_eq_ok run
  rw [mutator]
  exact settingsFor_keeps_mutator global settings

theorem settingsFor_failsOnly (maps : config.HasMaps) (id : Option String) :
    (settingsFor config (id.map .str)).FailsOnly Failure.IsSetting := by
  cases id with
  | none => exact .ok _
  | some name =>
      by_cases unnamed : name = ""
      · subst unnamed
        exact .ok _
      · rw [Option.map_some, settingsFor_named config unnamed]
        split
        · exact .ok _
        · rename_i raw found
          obtain ⟨before, later, same, -⟩ := List.lookup_eq_some_iff.mp found
          obtain ⟨entries, isMap⟩ := maps (name, raw) (by rw [same]; simp)
          obtain rfl : raw = .map entries := isMap
          refine .bind (applySettings_failsOnly _ _) fun own _ => ?_
          split
          · exact rejectSetting_failsOnly _
          · exact .ok _

end Config

/-! ## What contracts bring along -/

theorem FormBody.ofSchema_eq_ok {kind : FormKind} {source : String} {schema : Option Value}
    {form : FormBody} (run : ofSchema kind source schema = .ok form) :
    form.kind = kind ∧ form.source = source := by
  unfold ofSchema at run
  dsimp only at run
  split at run
  all_goals
    obtain ⟨entries, -, run⟩ := Attempt.bind_eq_ok run
    split at run
    · cases run
      exact ⟨rfl, rfl⟩
    · obtain ⟨required, -, run⟩ := Attempt.bind_eq_ok run
      obtain ⟨properties, -, run⟩ := Attempt.bind_eq_ok run
      obtain ⟨fields, -, run⟩ := Attempt.bind_eq_ok run
      cases run
      exact ⟨rfl, rfl⟩

namespace Contract

/-- The texts that a contract brings into the code of its operation: its names, its types,
where these are not those of request options, and its settings. -/
inductive Gives (c : Contract) : String → Prop
  | name : Gives c c.name
  | keyFunctionName : Gives c c.keyFunctionName
  | hookName : Gives c c.hookName
  | resultName {kind : VerbKind} : Gives c (c.hook kind).resultName
  | errorName {kind : VerbKind} : Gives c (c.hook kind).errorName
  | route : Gives c c.route
  | slotName {slot : Slot} :
      slot ∈ c.surface.slots → slot.role ≠ .options → Gives c slot.name
  | slotType {slot : Slot} :
      slot ∈ c.surface.slots → slot.role ≠ .options → Gives c slot.type
  | wrapper {slot : Slot} {name : String} :
      slot ∈ c.surface.slots → slot.wrapper = some name → Gives c name
  | success : Gives c c.answer.success
  | failure : Gives c c.answer.error
  | mutator {m : Mutator} : c.mutator = some m → Gives c m.name
  | mediaType {name : String} : c.body.mediaType = some (.str name) → Gives c name
  | field {form : FormBody} {fields : List FormField} {field : FormField} :
      c.form? = .ok (some form) → form.fields = some fields → field ∈ fields →
      Gives c field.name
  /-- The key of a preset option, of the request or of the hook. -/
  | optionKey {entry : Scalar × Value} :
      entry ∈ c.override.presetOptions ++ c.override.swrOptions.getD [] →
      Gives c entry.1.shown
  | optionValue {entry : Scalar × Value} :
      entry ∈ c.override.presetOptions ++ c.override.swrOptions.getD [] →
      Gives c ((Literal.text? entry.2).getD "")

section Given

variable {w : String} (axios : w ∈ axiosNames) {op : Operation} {o : Override} {c : Contract}
  {path query header : List Slot} {queryTypes headerTypes : List Declaration}
  {profile : Profile}

/-- The options of a mutator are its second parameter. -/
theorem Assembled.options_slot
    (built : c.Assembled op o path query header queryTypes headerTypes) {m : Mutator}
    (mutator : c.mutator = some m) {slot : Slot} (member : slot ∈ c.surface.slots)
    (role : slot.role = .options) :
    slot = ⟨.options, "options", secondParameterType m, true, none⟩ := by
  obtain ⟨t, given, same⟩ := built.isOptions_iff.mp ⟨member, role⟩
  obtain ⟨-, ⟨none, -⟩ | ⟨own, some, -, rfl⟩⟩ := transportOptions_eq_some.mp given
  · cases none.symm.trans mutator
  · cases some.symm.trans mutator
    exact same

theorem exists_of_slotName? {role : Role} {name : String} (found : c.slotName? role = some name) :
    ∃ slot ∈ c.surface.slots, slot.role = role ∧ slot.name = name := by
  obtain ⟨slot, first, same⟩ := Option.map_eq_some_iff.mp found
  exact ⟨slot, List.mem_of_find?_eq_some first, by simpa using List.find?_some first, same⟩

theorem request_form {f : RequestFunction} (run : c.request profile = .ok f) :
    c.form? = .ok f.form := by
  unfold request at run
  obtain ⟨form, read, run⟩ := Attempt.bind_eq_ok run
  cases mutator : c.mutator with
  | none =>
      rw [mutator] at run
      cases run
      exact read
  | some m =>
      rw [mutator] at run
      obtain ⟨call, -, run⟩ := Attempt.bind_eq_ok run
      cases run
      exact read

/-- A form is built from the variable of the body. -/
theorem form_source {form : FormBody} (run : c.form? = .ok (some form)) :
    c.slotName? .body = some form.source := by
  unfold form? at run
  split at run
  · rename_i source kind body _
    obtain ⟨made, built, same⟩ := Attempt.map_eq_ok run
    obtain rfl : made = form := Option.some.inj same
    rw [body, (FormBody.ofSchema_eq_ok built).2]
  · cases run

include axios

theorem secondParameterType_avoids {m : Mutator} (name : Avoids w m.name) :
    Avoids w (secondParameterType m) :=
  avoids_framed axios (by decide) name

variable (given : ∀ text, c.Gives text → Avoids w text)
include given

theorem Assembled.slot_avoids
    (built : c.Assembled op o path query header queryTypes headerTypes) {m : Mutator}
    (mutator : c.mutator = some m) {slot : Slot} (member : slot ∈ c.surface.slots) :
    Avoids w slot.name ∧ Avoids w slot.renderedType := by
  have wrapped : Avoids w slot.type → Avoids w slot.renderedType := by
    intro type
    have fixed : IsDivider "<" ∧ IsClosing ">" := by decide
    unfold Slot.renderedType
    split
    · rename_i name some
      split
      · exact type
      · exact avoids_suffixed axios fixed.2
          (avoids_around axios fixed.1 (given _ (.wrapper member some)) type)
    · exact type
  by_cases options : slot.role = .options
  · have fixed : IsNeutral "options" := by decide
    have same := built.options_slot mutator member options
    refine ⟨?_, wrapped ?_⟩
    · rw [same]
      exact fixed.avoids axios
    · rw [same]
      exact secondParameterType_avoids axios (given _ (.mutator mutator))
  · exact ⟨given _ (.slotName member options), wrapped (given _ (.slotType member options))⟩

/-- Slots of the contract, in whatever function they stand. -/
theorem Assembled.surface_avoids
    (built : c.Assembled op o path query header queryTypes headerTypes) {m : Mutator}
    (mutator : c.mutator = some m) {s : Surface} (part : ∀ slot ∈ s.slots, slot ∈ c.surface.slots) :
    ∀ text ∈ s.texts, Avoids w text := by
  intro text member
  obtain ⟨slot, among, inside⟩ := List.mem_flatMap.mp member
  obtain ⟨name, type⟩ := built.slot_avoids axios given mutator (part slot among)
  simp only [Slot.texts, List.mem_cons, List.not_mem_nil, or_false] at inside
  rcases inside with rfl | rfl
  · exact name
  · exact type

theorem Assembled.slotName_avoids
    (built : c.Assembled op o path query header queryTypes headerTypes) {m : Mutator}
    (mutator : c.mutator = some m) {role : Role} {name : String}
    (found : c.slotName? role = some name) : Avoids w name := by
  obtain ⟨slot, member, -, rfl⟩ := exists_of_slotName? found
  exact (built.slot_avoids axios given mutator member).1

omit axios in
/-- The entries of preset options. -/
theorem presets_avoid {options : Entries}
    (among : ∀ entry ∈ options, entry ∈ c.override.presetOptions ++ c.override.swrOptions.getD []) :
    ∀ e ∈ CallEntry.presets options, ∀ text ∈ e.texts, Avoids w text := by
  intro e member text inside
  obtain ⟨entry, there, rfl⟩ := List.mem_map.mp member
  simp only [CallEntry.texts, List.mem_cons, List.not_mem_nil, or_false] at inside
  rcases inside with rfl | rfl
  · exact given _ (.optionKey (among entry there))
  · exact given _ (.optionValue (among entry there))

theorem contentType_avoids {name : String} (run : c.contentType? = .ok (some name)) :
    Avoids w name := by
  have fixed : IsNeutral formDataType ∧ IsNeutral formUrlEncodedType := by decide
  unfold contentType? at run
  split at run
  · cases run
  · split at run
    · cases run
      exact fixed.1.avoids axios
    · split at run
      · cases run
        exact fixed.2.avoids axios
      · split at run
        · cases run
        · rename_i mediaType media
          split at run
          · cases run
            exact given _ (.mediaType media)
          · cases run
        · split at run <;> cases run

theorem Assembled.dataName_avoids
    (built : c.Assembled op o path query header queryTypes headerTypes) {m : Mutator}
    (mutator : c.mutator = some m) {name : String} (found : c.dataName? = some name) :
    Avoids w name := by
  unfold dataName? at found
  split at found
  · rename_i kind _ _
    cases found
    exact (kind.name_avoids axios).1
  · rename_i source body _
    cases found
    exact built.slotName_avoids axios given mutator body
  · cases found

/-- The call to a mutator. -/
theorem Assembled.mutatorCall_avoids
    (built : c.Assembled op o path query header queryTypes headerTypes) {m : Mutator}
    (mutator : c.mutator = some m) {call : Call} (run : c.mutatorCall m = .ok call) :
    ∀ text ∈ call.texts, Avoids w text := by
  have fixed : IsDivider "<" ∧ IsClosing ">" ∧ IsNeutral "options" := by decide
  unfold mutatorCall at run
  obtain ⟨contentType, typed, run⟩ := Attempt.bind_eq_ok run
  cases run
  have entries : ∀ e ∈ [CallEntry.url c.route, .method c.verb] ++
      headerEntries contentType (c.slotName? .header) ++ (c.dataName?.map .data).toList ++
      ((c.slotName? .query).map .shorthand).toList, ∀ text ∈ e.texts, Avoids w text := by
    intro e member text inside
    simp only [List.mem_append, List.mem_cons, List.not_mem_nil, or_false] at member
    rcases member with (((rfl | rfl) | inHeader) | inBody) | inQuery
    · rw [List.mem_singleton.mp inside]
      exact given _ .route
    · cases inside
    · unfold headerEntries at inHeader
      split at inHeader
      · cases inHeader
      · rw [List.mem_singleton.mp inHeader] at inside
        rcases List.mem_append.mp inside with type | group
        · rw [Option.mem_toList.mp type] at typed
          exact contentType_avoids axios given typed
        · exact built.slotName_avoids axios given mutator (Option.mem_toList.mp group)
    · obtain ⟨name, found, rfl⟩ := Option.map_eq_some_iff.mp (Option.mem_toList.mp inBody)
      rw [List.mem_singleton.mp inside]
      exact built.dataName_avoids axios given mutator found
    · obtain ⟨name, found, rfl⟩ := Option.map_eq_some_iff.mp (Option.mem_toList.mp inQuery)
      rw [List.mem_singleton.mp inside]
      exact built.slotName_avoids axios given mutator found
  have presets := presets_avoid given (fun entry (member : entry ∈ c.override.presetOptions) =>
    List.mem_append_left _ member)
  have options : ∀ a ∈ c.mutatorOptions m, ∀ text ∈ a.texts, Avoids w text := by
    intro a member text inside
    unfold mutatorOptions at member
    dsimp only at member
    split at member
    · cases member
    · split at member
      · split at member
        · rw [List.mem_singleton.mp member] at inside
          rw [List.mem_singleton.mp inside]
          exact fixed.2.2.avoids axios
        · rw [List.mem_singleton.mp member] at inside
          obtain ⟨e, among, there⟩ := List.mem_flatMap.mp inside
          rcases List.mem_append.mp among with preset | own
          · exact presets e preset text there
          · rw [List.mem_singleton.mp own] at there
            rw [List.mem_singleton.mp there]
            exact fixed.2.2.avoids axios
      · split at member
        · cases member
        · rw [List.mem_singleton.mp member] at inside
          obtain ⟨e, among, there⟩ := List.mem_flatMap.mp inside
          exact presets e among text there
  intro text member
  rcases List.mem_cons.mp member with rfl | passed
  · exact avoids_suffixed axios fixed.2.1
      (avoids_around axios fixed.1 (given _ (.mutator mutator)) (given _ .success))
  · obtain ⟨a, among, inside⟩ := List.mem_flatMap.mp passed
    rcases List.mem_cons.mp among with rfl | later
    · obtain ⟨e, there, here⟩ := List.mem_flatMap.mp inside
      exact entries e there text here
    · exact options a later text inside

/-- The request function of an operation with a mutator. -/
theorem Assembled.request_avoids
    (built : c.Assembled op o path query header queryTypes headerTypes) {m : Mutator}
    (mutator : c.mutator = some m) {f : RequestFunction} (run : c.request profile = .ok f) :
    f.result = none ∧ Avoids w f.render := by
  obtain ⟨name, surface, rest⟩ := request_eq_ok run
  rw [mutator] at rest
  obtain ⟨untyped, called⟩ := rest
  refine ⟨untyped, f.render_avoids axios untyped fun text member => ?_⟩
  simp only [RequestFunction.texts, List.mem_append, List.mem_cons] at member
  rcases member with (rfl | inSurface) | inForm | inCall
  · rw [name]
    exact given _ .name
  · rw [surface] at inSurface
    exact built.surface_avoids axios given mutator (fun _ => id) text inSurface
  · cases form : f.form with
    | none =>
        rw [form] at inForm
        cases inForm
    | some body =>
        have made := request_form run
        rw [form] at inForm made
        rcases List.mem_cons.mp inForm with rfl | inFields
        · exact built.slotName_avoids axios given mutator (form_source made)
        · obtain ⟨field, among, rfl⟩ := List.mem_map.mp inFields
          cases fields : body.fields with
          | none =>
              rw [fields] at among
              cases among
          | some listed =>
              rw [fields] at among
              exact given _ (.field made fields among)
  · exact built.mutatorCall_avoids axios given mutator called text inCall

/-- The key function of an operation with a mutator. -/
theorem Assembled.keyFunction_avoids
    (built : c.Assembled op o path query header queryTypes headerTypes) {m : Mutator}
    (mutator : c.mutator = some m) : ∀ text ∈ c.keyFunction.texts, Avoids w text := by
  have part : ∀ slot ∈ c.keyFunction.surface.slots, slot ∈ c.surface.slots :=
    fun slot member => (Surface.mem_only.mp member).1
  intro text member
  simp only [KeyFunction.texts, List.mem_append, List.mem_cons] at member
  rcases member with (rfl | rfl | inQuery) | inSurface
  · exact given _ .keyFunctionName
  · exact given _ .route
  · obtain ⟨slot, first, rfl⟩ := Option.map_eq_some_iff.mp (Option.mem_toList.mp inQuery)
    exact (built.slot_avoids axios given mutator (part slot (List.mem_of_find?_eq_some first))).1
  · exact built.surface_avoids axios given mutator part text inSurface

omit axios given in
/-- The request options that a hook hands on to a mutator. -/
theorem transportOptions_of_mutator {m : Mutator} (mutator : c.mutator = some m) :
    c.transportOptions? = none ∨ c.transportOptions? = some (.mutator m) := by
  cases given : c.transportOptions? with
  | none => exact Or.inl rfl
  | some t =>
      obtain ⟨-, ⟨none, -⟩ | ⟨own, some, -, rfl⟩⟩ := transportOptions_eq_some.mp given
      · cases none.symm.trans mutator
      · cases some.symm.trans mutator
        exact Or.inr rfl

theorem errorType_avoids {m : Mutator} (mutator : c.mutator = some m) : Avoids w c.errorType := by
  unfold errorType
  rw [mutator]
  dsimp only
  split
  · exact avoids_framed axios (by decide) (given _ .failure)
  · exact given _ .failure

/-- What the hook of an operation with a mutator passes. -/
theorem Assembled.callArguments_avoid
    (built : c.Assembled op o path query header queryTypes headerTypes) {m : Mutator}
    (mutator : c.mutator = some m) (kind : VerbKind) :
    ∀ text ∈ c.callArguments kind, Avoids w text := by
  have fixed : IsNeutral "arg" ∧ IsNeutral "requestOptions" := by decide
  intro text member
  rcases List.mem_append.mp member with inFront | inOptions
  · obtain ⟨slot, among, rfl⟩ := List.mem_map.mp inFront
    unfold callArgument
    split
    · exact fixed.1.avoids axios
    · exact (built.slot_avoids axios given mutator (Surface.mem_without.mp among).1).1
  · obtain ⟨t, found, rfl⟩ := Option.map_eq_some_iff.mp (Option.mem_toList.mp inOptions)
    rcases transportOptions_of_mutator mutator with none | some
    · rw [none] at found
      cases found
    · rw [some] at found
      cases found
      exact fixed.2.avoids axios

theorem hookSettings_avoid : ∀ text ∈ c.hookSettings.texts, Avoids w text := by
  have fixed : IsNeutral "swrOptions" := by decide
  have presets := presets_avoid given
    (fun entry (member : entry ∈ c.override.swrOptions.getD []) => List.mem_append_right _ member)
  intro text member
  unfold hookSettings at member
  split at member
  · rw [List.mem_singleton.mp member]
    exact fixed.avoids axios
  · obtain ⟨e, among, inside⟩ := List.mem_flatMap.mp member
    rcases List.mem_append.mp among with preset | own
    · exact presets e preset text inside
    · rw [List.mem_singleton.mp own] at inside
      rw [List.mem_singleton.mp inside]
      exact fixed.avoids axios

/-- The hook of an operation with a mutator. -/
theorem Assembled.hook_avoids
    (built : c.Assembled op o path query header queryTypes headerTypes) {m : Mutator}
    (mutator : c.mutator = some m) (kind : VerbKind) :
    (c.hook kind).transport ≠ some .axios ∧ Avoids w (c.hook kind).render := by
  have handsOn : (c.hook kind).transport ≠ some .axios := by
    intro absurd
    have absurd : c.transportOptions? = some .axios := absurd
    rcases transportOptions_of_mutator mutator with none | some
    · rw [none] at absurd
      cases absurd
    · rw [some] at absurd
      cases absurd
  refine ⟨handsOn, (c.hook kind).render_avoids axios handsOn (fun text member => ?_)
    (built.keyFunction_avoids axios given mutator)⟩
  have slotNames : ∀ roles, ∀ name ∈ (c.surface.only roles).names, Avoids w name := by
    intro roles name named
    obtain ⟨slot, among, rfl⟩ := List.mem_map.mp named
    exact (built.slot_avoids axios given mutator (Surface.mem_only.mp among).1).1
  simp only [Hook.texts, List.mem_append, List.mem_cons, List.not_mem_nil, or_false] at member
  rcases member with ((((((rfl | rfl | rfl | rfl | rfl) | inSurface) | inTransport) | inGuards) |
    inArgument) | inCall) | inSettings
  · exact given _ .hookName
  · exact given _ .name
  · exact given _ .resultName
  · exact given _ .errorName
  · exact errorType_avoids axios given mutator
  · exact built.surface_avoids axios given mutator
      (fun slot there => (Surface.mem_without.mp there).1) text inSurface
  · obtain ⟨t, found, rfl⟩ := Option.map_eq_some_iff.mp (Option.mem_toList.mp inTransport)
    have found : c.transportOptions? = some t := found
    rcases transportOptions_of_mutator mutator with none | some
    · rw [none] at found
      cases found
    · rw [some] at found
      cases found
      exact secondParameterType_avoids axios (given _ (.mutator mutator))
  · rcases List.mem_append.mp inGuards with inPath | inQuery
    · exact slotNames [.path] text inPath
    · split at inQuery
      · rename_i slot first
        split at inQuery
        · cases inQuery
        · rw [List.mem_singleton.mp inQuery]
          exact (built.slot_avoids axios given mutator (List.mem_of_find?_eq_some first)).1
      · cases inQuery
  · have found : (if kind = .mutation then (c.surface.first? .body).map Slot.renderedType
        else none) = some text := Option.mem_toList.mp inArgument
    split at found
    · obtain ⟨slot, first, rfl⟩ := Option.map_eq_some_iff.mp found
      exact (built.slot_avoids axios given mutator (List.mem_of_find?_eq_some first)).2
    · cases found
  · rcases List.mem_cons.mp inCall with rfl | passed
    · exact given _ .name
    · obtain ⟨a, among, inside⟩ := List.mem_flatMap.mp passed
      obtain ⟨name, there, rfl⟩ := List.mem_map.mp among
      rw [List.mem_singleton.mp inside]
      exact built.callArguments_avoid axios given mutator kind name there
  · exact hookSettings_avoid axios given text inSettings

/-- All code of an operation with a mutator. -/
theorem Assembled.client_avoids
    (built : c.Assembled op o path query header queryTypes headerTypes) {m : Mutator}
    (mutator : c.mutator = some m) {f : Flavor} {hook : Option VerbKind}
    (writes : f.Writes profile c hook) {code : ClientCode}
    (run : (f.client c).result = .ok code) : Avoids w code.implementation := by
  have fixed : IsDivider "\n\n" ∧ IsClosing "\n" := by decide
  have closed : ∀ text, Avoids w text → Avoids w (text ++ "\n") := fun text avoids =>
    avoids_suffixed axios fixed.2 avoids
  cases writes with
  | axios =>
      have run : Flavor.Axios.client profile c = .ok code := run
      obtain ⟨r, request, run⟩ := Attempt.bind_eq_ok run
      cases run
      exact closed _ (built.request_avoids axios given mutator request).2
  | swr =>
      have run : (Flavor.Swr.client profile c).result = .ok code := run
      obtain ⟨r, request, run⟩ := Traced.bind_eq_ok run
      have request : c.request profile = .ok r := request
      have requested := (built.request_avoids axios given mutator request).2
      cases hooked : VerbKind.ofVerb? c.verb with
      | none =>
          rw [hooked] at run
          cases run
          exact closed _ requested
      | some kind =>
          rw [hooked] at run
          cases run
          have key := c.keyFunction.render_avoids axios
            (built.keyFunction_avoids axios given mutator)
          have both := avoids_around axios fixed.1 key
            (built.hook_avoids axios given mutator kind).2
          exact avoids_around axios fixed.1 requested (closed _ both)

end Given

/-- Where a text mentions an export of axios, the contract brings the name along. -/
def MentionsOnlyGiven (c : Contract) (text : String) : Prop :=
  ∀ w ∈ axiosNames, Text.hasWord w text = true →
    ∃ given, c.Gives given ∧ Text.hasWord w given = true

/-- The requests of a contract are sent by a mutator, and its types are those of the mutator. -/
structure SentBy (c : Contract) (m : Mutator) (profile : Profile) : Prop where
  mutator : c.mutator = some m
  signature : ∀ r, c.request profile = .ok r → r.result = none ∧
    ∀ slot ∈ r.surface.slots, slot.role = .options → slot.renderedType = secondParameterType m
  call : ∀ r, c.request profile = .ok r → r.call.callee = m.name ++ "<" ++ c.answer.success ++ ">"
  errorType : c.errorType = c.answer.error ∨ c.errorType = "ErrorType<" ++ c.answer.error ++ ">"
  hook : ∀ kind, (c.hook kind).errorType = c.errorType ∧
    ((c.hook kind).transport = none ∨ (c.hook kind).transport = some (.mutator m))

section SentBy

variable {op : Operation} {o : Override} {c : Contract} {path query header : List Slot}
  {queryTypes headerTypes : List Declaration} {m : Mutator} {profile : Profile}

theorem Assembled.sentBy (built : c.Assembled op o path query header queryTypes headerTypes)
    (mutator : c.mutator = some m) : c.SentBy m profile := by
  refine ⟨mutator, fun r request => ?_, fun r request => ?_, ?_, fun kind => ⟨rfl, ?_⟩⟩
  · obtain ⟨-, surface, rest⟩ := request_eq_ok request
    rw [mutator] at rest
    refine ⟨rest.1, fun slot member role => ?_⟩
    rw [surface] at member
    rw [built.options_slot mutator member role]
    rfl
  · obtain ⟨-, -, rest⟩ := request_eq_ok request
    rw [mutator] at rest
    obtain ⟨contentType, -, run⟩ := Attempt.bind_eq_ok rest.2
    exact (congrArg Call.callee (Except.ok.inj run)).symm
  · unfold Contract.errorType
    rw [mutator]
    dsimp only
    split
    · exact Or.inr rfl
    · exact Or.inl rfl
  · exact transportOptions_of_mutator mutator

/-- All code of an operation with a mutator, once more: what it mentions, it was given. -/
theorem Assembled.client_mentions
    (built : c.Assembled op o path query header queryTypes headerTypes)
    (mutator : c.mutator = some m) {f : Flavor} {hook : Option VerbKind}
    (writes : f.Writes profile c hook) {code : ClientCode}
    (run : (f.client c).result = .ok code) : c.MentionsOnlyGiven code.implementation := by
  intro w axios found
  by_contra none
  have given : ∀ text, c.Gives text → Avoids w text := by
    intro text brought
    rw [Avoids, Bool.eq_false_iff]
    exact fun there => none ⟨text, brought, there⟩
  have avoids : Text.hasWord w code.implementation = false :=
    built.client_avoids axios given mutator writes run
  rw [found] at avoids
  cases avoids

end SentBy

end Contract

/-! ## Files -/

namespace Flavor

/-- The headers of files mention nothing of axios. -/
theorem header_avoids {w : String} (axios : w ∈ axiosNames) {profile : Profile} {f : Flavor}
    (builtIn : f = .axios profile ∨ f = .swr profile) (flags : HeaderFlags) :
    Avoids w (f.header flags) := by
  have fixed : IsClosing "\n" ∧ IsClosing "\n\n" ∧ IsNeutral "" := by decide
  have second : Avoids w secondParameterHelper := by
    have pieces : IsOpening "// eslint-disable-next-line\n" ∧
        IsNeutral "type SecondParameter<T extends (...args: any) => any> = T extends (\n" ∧
        IsClosing "  config: any,\n  args: infer P,\n) => any\n  ? P\n  : never;" := by
      decide +kernel
    exact avoids_suffixed axios pieces.2.2
      (avoids_prefixed axios pieces.1 (pieces.2.1.avoids axios))
  have awaited : Avoids w Swr.awaitedHelper := by
    have pieces : IsOpening "type AwaitedInput<T> = PromiseLike<T> | T;\n\n" ∧
        IsNeutral "type Awaited<O> = O extends AwaitedInput<infer T> ? T : never;" := by
      decide +kernel
    exact avoids_prefixed axios pieces.1 (pieces.2.avoids axios)
  rcases builtIn with rfl | rfl
  · show Avoids w (Axios.header flags)
    unfold Axios.header
    split
    · exact avoids_suffixed axios fixed.1 second
    · exact fixed.2.2.avoids axios
  · show Avoids w (Swr.header flags)
    unfold Swr.header
    have first : Avoids w (if flags.hasAwaited then "" else Swr.awaitedHelper ++ "\n\n") ∧
        EndsOpen (if flags.hasAwaited then "" else Swr.awaitedHelper ++ "\n\n") := by
      split
      · exact ⟨fixed.2.2.avoids axios, by decide⟩
      · exact ⟨avoids_suffixed axios fixed.2.1 awaited,
          EndsOpen.append _ (by decide) (by decide)⟩
    refine .append (isName_of_mem_axiosNames w axios) first.1 ?_ (Or.inl first.2)
    split
    · exact avoids_suffixed axios fixed.2.1 second
    · exact fixed.2.2.avoids axios

section Files

variable {f : Flavor} {profile : Profile} {flags : HeaderFlags}

/-- The two flavors write the code of every contract. -/
theorem exists_writes (builtIn : f = .axios profile ∨ f = .swr profile) (c : Contract) :
    ∃ hook, f.Writes profile c hook := by
  rcases builtIn with rfl | rfl
  · exact ⟨_, .axios⟩
  · exact ⟨_, .swr⟩

/-- Without a mutator an operation imports axios and the type of its answers. -/
theorem Writes.imports_transport {c : Contract} {hook : Option VerbKind} {code : OperationCode}
    (writes : f.Writes profile c hook) (run : (f.codeOf flags false c).result = .ok code)
    (none : c.mutator = none) :
    { axiosType "axios" with isDefault := true, isValue := true } ∈ code.imports ∧
      axiosType "AxiosResponse" ∈ code.imports := by
  obtain ⟨-, ⟨r, request, within⟩, -⟩ := writes.codeOf_eq_ok run
  obtain ⟨axios, response⟩ := Contract.request_mentions_axios request none
  have mutated : false = true → c.mutator.isSome = true := fun absurd => by cases absurd
  constructor
  · exact writes.imports_axios run mutated none List.mem_cons_self
      (e := ⟨"axios", true, true, true⟩) (by decide) (by decide) (axios.within within)
  · exact writes.imports_axios run mutated none List.mem_cons_self
      (e := { name := "AxiosResponse" }) (by decide) (by decide) (response.within within)

theorem builtIn_reportsNothing (builtIn : f = .axios profile ∨ f = .swr profile) :
    f.ReportsNothing := by
  rcases builtIn with rfl | rfl
  · exact axios_reportsNothing profile
  · exact swr_reportsNothing profile

end Files

end Flavor

/-! ## All operations -/

/-- A contract of an operation under settings with a mutator for all operations has one. -/
theorem Config.contractFor_assembled {config : Config} (global : config.hasGlobalMutator = true)
    {op : Operation} {c : Contract} (built : (config.contractFor op).result = .ok c) :
    ∃ o m path query header queryTypes headerTypes,
      c.Assembled op o path query header queryTypes headerTypes ∧ c.mutator = some m := by
  obtain ⟨o, settings, built⟩ := Traced.bind_eq_ok built
  obtain ⟨path, query, header, queryTypes, headerTypes, assembled⟩ :=
    Operation.contract_eq_ok built
  obtain ⟨m, some⟩ := Option.isSome_iff_exists.mp (overrideFor_keeps_mutator global settings)
  exact ⟨o, m, path, query, header, queryTypes, headerTypes, assembled,
    by rw [assembled.mutator, some]⟩

/-- **A mutator for all operations takes the place of axios, and only that does.** -/
theorem Config.mutator_replaces_axios (config : Config) {profile : Profile} {f : Flavor}
    (builtIn : f = .axios profile ∨ f = .swr profile) :
    (config.hasGlobalMutator = true →
      (∀ id extensions o, config.overrideFor id extensions = .ok o → o.mutator.isSome = true) ∧
      (config.HasMaps → ∀ (id : Option String) extensions,
        (config.overrideFor (id.map .str) extensions).FailsOnly Failure.IsSetting) ∧
      ∀ contracts, (∀ c ∈ contracts, ∃ op, (config.contractFor op).result = .ok c) →
        (∀ c ∈ contracts, ∃ m, c.SentBy m profile) ∧
        ∀ file, (f.fileOf config.hasGlobalMutator contracts).result = .ok file →
          (∀ w ∈ axiosNames, Text.hasWord w file.header = false) ∧
          List.Forall₂ Contract.MentionsOnlyGiven contracts file.implementations ∧
          ∀ d ∈ file.dependencies, ∀ e ∈ d.exports, e.name ∉ axiosNames) ∧
    (config.hasGlobalMutator = false →
      ∀ contracts, ∀ c ∈ contracts, c.mutator = none →
        (∀ flags code, (f.codeOf flags config.hasGlobalMutator c).result = .ok code →
          { axiosType "axios" with isDefault := true, isValue := true } ∈ code.imports ∧
          axiosType "AxiosResponse" ∈ code.imports) ∧
        ∀ file, (f.fileOf config.hasGlobalMutator contracts).result = .ok file →
          { axiosType "axios" with isDefault := true, isValue := true } ∈ file.imports.refs ∧
          axiosType "AxiosResponse" ∈ file.imports.refs) := by
  have quiet := Flavor.builtIn_reportsNothing builtIn
  refine ⟨fun global => ⟨fun id extensions o run => overrideFor_keeps_mutator global run,
    fun maps id extensions => overrideFor_failsOnly (settingsFor_failsOnly maps id) extensions,
    fun contracts each => ⟨fun c member => ?_, fun file run => ?_⟩⟩,
    fun noneGlobal contracts c member none => ⟨fun flags code run => ?_, fun file run => ?_⟩⟩
  · obtain ⟨op, built⟩ := each c member
    obtain ⟨o, m, path, query, header, queryTypes, headerTypes, assembled, mutator⟩ :=
      contractFor_assembled global built
    exact ⟨m, assembled.sentBy mutator⟩
  · obtain ⟨codes, coded, header, dependencies, implementations, -, -⟩ :=
      Flavor.fileOf_adds quiet run
    rw [header, dependencies, implementations, global]
    refine ⟨fun w axios => Flavor.header_avoids axios builtIn _, ?_, ?_⟩
    · rw [List.forall₂_map_right_iff]
      refine List.Forall₂.imp ?_ ((List.forall₂_and_left _ _).mpr ⟨each, coded⟩)
      rintro c code ⟨⟨op, built⟩, run⟩
      obtain ⟨o, m, path, query, header, queryTypes, headerTypes, assembled, mutator⟩ :=
        contractFor_assembled global built
      obtain ⟨client, written, run⟩ := Traced.bind_eq_ok run
      cases run
      obtain ⟨hook, writes⟩ := Flavor.exists_writes builtIn c
      exact assembled.client_mentions mutator writes written
    · have offered : ∀ d ∈ f.dependencies true, d ∈ Flavor.Swr.hookDependencies := by
        intro d listed
        rcases builtIn with rfl | rfl
        · cases listed
        · exact listed
      have others : ∀ d ∈ Flavor.Swr.hookDependencies, ∀ e ∈ d.exports, e.name ∉ axiosNames := by
        decide
      exact fun d listed => others d (offered d listed)
  · obtain ⟨hook, writes⟩ := Flavor.exists_writes builtIn c
    rw [noneGlobal] at run
    exact writes.imports_transport run none
  · obtain ⟨codes, coded, -, -, -, -, imports⟩ := Flavor.fileOf_adds quiet run
    obtain ⟨code, among, run⟩ := exists_of_mem_right coded.flip member
    obtain ⟨hook, writes⟩ := Flavor.exists_writes builtIn c
    rw [noneGlobal] at run
    obtain ⟨axios, response⟩ := writes.imports_transport run none
    exact ⟨(imports _).mpr ⟨code, among, axios⟩, (imports _).mpr ⟨code, among, response⟩⟩

/-- The same operation, sent by a mutator for all operations, and by axios in a file with an
operation that has a mutator. -/
theorem Config.mutator_replaces_axios_rename :
    ∃ mutated plain file mixed,
      (({ override := { mutator := some Contract.sender } } : Config).contractFor
        Contract.renamePet).result = .ok mutated ∧
      (({} : Config).contractFor Contract.renamePet).result = .ok plain ∧
      ((Flavor.swr ⟨true, true⟩).fileOf true [mutated]).result = .ok file ∧
      ((Flavor.swr ⟨true, true⟩).fileOf false [mutated, plain]).result = .ok mixed ∧
      mutated.SentBy Contract.sender ⟨true, true⟩ ∧
      List.Forall₂ Contract.MentionsOnlyGiven [mutated] file.implementations ∧
      axiosType "AxiosResponse" ∈ mixed.imports.refs := by
  have runs : ∃ mutated plain file mixed,
      (({ override := { mutator := some Contract.sender } } : Config).contractFor
        Contract.renamePet).result = .ok mutated ∧
      (({} : Config).contractFor Contract.renamePet).result = .ok plain ∧
      ((Flavor.swr ⟨true, true⟩).fileOf true [mutated]).result = .ok file ∧
      ((Flavor.swr ⟨true, true⟩).fileOf false [mutated, plain]).result = .ok mixed ∧
      mutated.mutator = some Contract.sender ∧ plain.mutator = none :=
    ⟨_, _, _, _, rfl, rfl, rfl, rfl, rfl, rfl⟩
  obtain ⟨mutated, plain, file, mixed, built, built', run, run', some, none⟩ := runs
  have builtIn : Flavor.swr ⟨true, true⟩ = .axios ⟨true, true⟩ ∨
      Flavor.swr ⟨true, true⟩ = .swr ⟨true, true⟩ := Or.inr rfl
  have replaced := (mutator_replaces_axios { override := { mutator := .some Contract.sender } }
    builtIn).1 rfl
  obtain ⟨sent, files⟩ := replaced.2.2 [mutated] fun c member =>
    ⟨_, List.mem_singleton.mp member ▸ built⟩
  obtain ⟨m, sentBy⟩ := sent mutated List.mem_cons_self
  obtain rfl : m = Contract.sender := Option.some.inj (sentBy.mutator.symm.trans some)
  have kept := (mutator_replaces_axios {} builtIn).2 rfl
    [mutated, plain] plain (List.mem_cons_of_mem _ List.mem_cons_self) none
  exact ⟨mutated, plain, file, mixed, built, built', run, run', sentBy, (files file run).2.1,
    (kept.2 mixed run').2⟩

end ClientForge
