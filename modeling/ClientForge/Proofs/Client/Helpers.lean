/-
# ClientForge.Proofs.Client.Helpers -- the helper type for the options of mutators

The options that a mutator takes have a type that is written with a helper type, and a file that
uses the helper has to declare it.  Four places decide this, each for itself: the parameter list
of a contract, the options of its hook, the variable that the hook hands on, and the flag for the
header of the file.  Each follows what the contract hands on (`Assembled.isOptions_iff`,
`field_iff`, `passesSecondArg_iff`), so they agree, whatever the settings are
(`Assembled.optionsAgree`).

Nothing else in the code of an operation has such a type.  The types of all other parameters are
read from schemas or named after the operation, and apply nothing (`Assembled.slot_unapplied`).
-/
import ClientForge.Proofs.Client.Transport
import ClientForge.Proofs.Types.Unapplied

namespace ClientForge

set_option autoImplicit false

open Text (Within)
open TypeText (Unapplied isWordChar)
open TypeText.Unapplied (of_word start_iff)

/-! ## Types of options -/

theorem secondParameterType_applied (m : Mutator) : ¬ Unapplied (secondParameterType m) := by
  have applied : "SecondParameter<typeof ".toList.dropWhile isWordChar ≠ [] ∧
      ¬ Unapplied "SecondParameter<typeof " := by decide +kernel
  intro unapplied
  unfold secondParameterType at unapplied
  rw [String.append_assoc] at unapplied
  exact applied.2 ((start_iff applied.1 _).mp unapplied)

/-- Only the options of a mutator have a type that is written with the helper. -/
theorem TransportOptions.exists_mutator {t : TransportOptions} {m : Mutator}
    (same : t.type = secondParameterType m) : ∃ own, t = .mutator own := by
  cases t with
  | axios =>
      refine absurd ?_ (secondParameterType_applied m)
      rw [← same]
      exact of_word (by decide +kernel)
  | mutator own => exact ⟨own, rfl⟩

namespace Hook

/-- The members of the options of a hook, each with its type: what is for the hook itself, and
what the hook hands on. -/
def optionFields (h : Hook) : List (String × String) :=
  if h.takesRequestOptions then
    ("swr", h.optionsType) :: (h.transport.map fun t => (t.member, t.type)).toList
  else [("swrOptions", h.optionsType)]

/-- A hook writes its options as one object, or alone if they are its own. -/
theorem optionsParameter_eq (h : Hook) :
    h.optionsParameter =
      (if h.takesRequestOptions then
        "options?: " ++ bracedList (h.optionFields.map fun field => field.1 ++ "?: " ++ field.2)
      else String.join (h.optionFields.map fun field => field.1 ++ "?: " ++ field.2)) := by
  unfold optionsParameter optionFields
  split
  · cases h.transport <;> rfl
  · rfl

/-- Every member stands where the hook declares its options. -/
theorem field_within {h : Hook} {field : String × String} (member : field ∈ h.optionFields) :
    Within (field.1 ++ "?: " ++ field.2) h.optionsParameter := by
  have among : field.1 ++ "?: " ++ field.2 ∈
      h.optionFields.map fun field => field.1 ++ "?: " ++ field.2 :=
    List.mem_map.mpr ⟨field, member, rfl⟩
  rw [optionsParameter_eq]
  split
  · exact (((Within.intercalate ", " among).right _).left _).right _
  · exact .join among

/-- The options of the hook itself are those of its package. -/
theorem optionsType_ne (h : Hook) (m : Mutator) : h.optionsType ≠ secondParameterType m := by
  intro same
  have second := congrArg (fun text => text.toList[1]?) same
  unfold optionsType secondParameterType at second
  cases kind : h.kind <;> simp [kind, VerbKind.configurationType] at second

theorem mem_optionFields {h : Hook} {field : String × String} (member : field ∈ h.optionFields) :
    field.2 = h.optionsType ∧ field.1 ∈ ["swr", "swrOptions"] ∨
      ∃ t, h.transport = some t ∧ field = (t.member, t.type) := by
  unfold optionFields at member
  split at member
  · rcases List.mem_cons.mp member with rfl | handed
    · exact Or.inl ⟨rfl, by simp⟩
    · obtain ⟨t, given, same⟩ := Option.map_eq_some_iff.mp (Option.mem_toList.mp handed)
      exact Or.inr ⟨t, given, same.symm⟩
  · obtain rfl := List.mem_singleton.mp member
    exact Or.inl ⟨rfl, by simp⟩

end Hook

/-! ## Types of other parameters -/

theorem Schema.resolve_unapplied {useDates inlineNamed : Bool} {schema : Value}
    {type : ResolvedType} (run : Schema.resolve useDates schema inlineNamed = .ok type) :
    Unapplied type.text := by
  obtain ⟨e, -, rfl⟩ := Attempt.map_eq_ok run
  exact e.render_unapplied

theorem RawParameter.normalize_unapplied {useDates : Bool} {p : RawParameter} {q : Parameter}
    (run : p.normalize useDates = .ok q) : Unapplied q.type.text := by
  unfold RawParameter.normalize at run
  obtain ⟨source, -, run⟩ := Attempt.bind_eq_ok run
  obtain ⟨type, read, run⟩ := Attempt.bind_eq_ok run
  cases run
  exact Schema.resolve_unapplied read

theorem Body.normalize_unapplied {o : Override} {request : Option RequestBody} {body : Body}
    (run : Body.normalize o request = .ok body) : Unapplied body.type.text := by
  unfold Body.normalize at run
  split at run
  · cases run
    exact of_word (by simp [Body.none])
  · split at run
    · cases run
      exact of_word (by simp [Body.none])
    · obtain ⟨type, read, run⟩ := Attempt.bind_eq_ok run
      obtain ⟨isFormData, run⟩ := Attempt.choice_eq_ok run
      obtain ⟨isFormUrlEncoded, run⟩ := Attempt.choice_eq_ok run
      cases run
      exact Schema.resolve_unapplied read

namespace Contract

/-- The slot of a group has the type that is made for the group. -/
theorem groupPart_type {typeName slotName : String} {role : Role} {members : List Parameter}
    {declarations : List Declaration} {slots : List Slot}
    (run : groupPart typeName slotName role members = .ok (declarations, slots)) :
    ∀ slot ∈ slots, slot.type = typeName := by
  unfold groupPart at run
  split at run
  · cases run
    intro slot member
    cases member
  · obtain ⟨declaration, made, run⟩ := Attempt.bind_eq_ok run
    obtain ⟨properties, -, made⟩ := Attempt.bind_eq_ok made
    cases made
    cases run
    intro slot member
    rw [List.mem_singleton.mp member]

/-- The slot of a body has the type of the body, or one that is made for it. -/
theorem bodyPart_type {name : String} {o : Override} {body : Body} :
    ∀ slot ∈ (bodyPart name o body).2.1,
      slot.type = body.type.text ∨ slot.type = Naming.pascal name ++ "Body" := by
  intro slot member
  unfold bodyPart at member
  split at member
  · cases member
  · rw [List.mem_singleton.mp member]
    dsimp only
    split
    · exact Or.inl rfl
    · exact Or.inr rfl

section Built

variable {op : Operation} {o : Override} {c : Contract} {path query header : List Slot}
  {queryTypes headerTypes : List Declaration}

/-- The types of all parameters but the request options apply nothing. -/
theorem Assembled.slot_unapplied
    (built : c.Assembled op o path query header queryTypes headerTypes) {slot : Slot}
    (member : slot ∈ c.surface.slots) (role : slot.role ≠ .options) : Unapplied slot.type := by
  have named : ∀ {ending}, Unapplied ending → Unapplied (Naming.pascal c.name ++ ending) :=
    fun unapplied => .append (.pascal c.name) unapplied
  rw [built.slots] at member
  rcases List.mem_append.mp member with front | options
  · obtain ⟨-, inPath⟩ | ⟨-, inQuery⟩ | ⟨-, inHeader⟩ | ⟨-, inBody⟩ := built.mem_front front
    · obtain ⟨-, p, among, same⟩ := built.path_role slot inPath
      rw [same]
      exact group_keeps built.grouped
        (fun raw _ q read => RawParameter.normalize_unapplied read) .path p among
    · rw [groupPart_type built.inQuery slot inQuery]
      exact named (by decide +kernel)
    · rw [groupPart_type built.inHeader slot inHeader]
      exact named (by decide +kernel)
    · rcases bodyPart_type slot inBody with same | same
      · rw [same]
        exact Body.normalize_unapplied built.body
      · rw [same]
        exact named (by decide +kernel)
  · exact absurd (optionsSlot_role slot options) role

/-! ## What a contract hands on -/

/-- The flag for the header asks whether options of a mutator are handed on. -/
theorem passesSecondArg_iff :
    c.passesSecondArg = true ↔ ∃ m, c.transportOptions? = some (.mutator m) := by
  rw [passesSecondArg, Bool.and_eq_true, Option.any_eq_true]
  constructor
  · rintro ⟨⟨m, mutator, second⟩, takes⟩
    exact ⟨m, transportOptions_eq_some.mpr ⟨takes, Or.inr ⟨m, mutator, second, rfl⟩⟩⟩
  · rintro ⟨m, given⟩
    obtain ⟨takes, ⟨-, other⟩ | ⟨own, mutator, second, same⟩⟩ := transportOptions_eq_some.mp given
    · cases other
    · exact ⟨⟨own, mutator, second⟩, takes⟩

/-- What a hook is given beside its own options is what the contract hands on. -/
theorem field_iff {kind : VerbKind} {name type : String} (other : name ∉ ["swr", "swrOptions"]) :
    (name, type) ∈ (c.hook kind).optionFields ↔
      ∃ t, c.transportOptions? = some t ∧ t.member = name ∧ t.type = type := by
  constructor
  · intro member
    rcases Hook.mem_optionFields member with ⟨-, own⟩ | ⟨t, given, same⟩
    · exact absurd own other
    · cases same
      exact ⟨t, given, rfl, rfl⟩
  · rintro ⟨t, given, rfl, rfl⟩
    have takes : (c.hook kind).takesRequestOptions = true :=
      (transportOptions_eq_some.mp given).1
    have given : (c.hook kind).transport = some t := given
    rw [Hook.optionFields, if_pos takes, given]
    exact List.mem_cons_of_mem _ (List.mem_singleton_self _)

/-! ## Agreement -/

/-- All places that decide on request options decide alike.  Options of a mutator are a parameter,
a member of the options of the hook, and the variable `requestOptions` inside it exactly if a
header for this contract alone would have the helper; without a mutator the same holds of options
for axios. -/
structure OptionsAgree (c : Contract) (f : Flavor) (kind : VerbKind) : Prop where
  slot : (∃ slot ∈ c.surface.slots, slot.role = .options ∧
    ∃ m, slot.type = secondParameterType m) ↔ (f.flags [c]).takesSecondArg = true
  field : (∃ type, ("request", type) ∈ (c.hook kind).optionFields) ↔
    (f.flags [c]).takesSecondArg = true
  name : c.transportOptions?.map TransportOptions.name = some "requestOptions" ↔
    (f.flags [c]).takesSecondArg = true
  axiosSlot : c.mutator = none → ((∃ slot ∈ c.surface.slots, slot.role = .options) ↔
    c.transportOptions?.map TransportOptions.name = some "axiosOptions")
  axiosField : c.mutator = none → ((∃ type, ("axios", type) ∈ (c.hook kind).optionFields) ↔
    c.transportOptions?.map TransportOptions.name = some "axiosOptions")

theorem Assembled.optionsAgree
    (built : c.Assembled op o path query header queryTypes headerTypes) (f : Flavor)
    (kind : VerbKind) : c.OptionsAgree f kind := by
  have flag : (f.flags [c]).takesSecondArg = true ↔
      ∃ m, c.transportOptions? = some (.mutator m) := by
    rw [← passesSecondArg_iff]
    simp [Flavor.flags]
  have withoutMutator : c.mutator = none → ∀ t, c.transportOptions? = some t → t = .axios := by
    intro none t given
    obtain ⟨-, ⟨-, same⟩ | ⟨m, mutator, -⟩⟩ := transportOptions_eq_some.mp given
    · exact same
    · cases none.symm.trans mutator
  constructor
  · rw [flag]
    constructor
    · rintro ⟨slot, member, role, m, same⟩
      obtain ⟨t, given, rfl⟩ := built.isOptions_iff.mp ⟨member, role⟩
      obtain ⟨own, rfl⟩ := TransportOptions.exists_mutator same
      exact ⟨own, given⟩
    · rintro ⟨m, given⟩
      obtain ⟨member, role⟩ := built.isOptions_iff.mpr ⟨_, given, rfl⟩
      exact ⟨_, member, role, m, rfl⟩
  · rw [flag]
    constructor
    · rintro ⟨type, member⟩
      obtain ⟨t, given, name, -⟩ := (field_iff (by decide)).mp member
      cases t with
      | axios => exact absurd name (by decide)
      | mutator m => exact ⟨m, given⟩
    · rintro ⟨m, given⟩
      exact ⟨_, (field_iff (by decide)).mpr ⟨_, given, rfl, rfl⟩⟩
  · rw [flag, Option.map_eq_some_iff]
    constructor
    · rintro ⟨t, given, name⟩
      cases t with
      | axios => exact absurd name (by decide)
      | mutator m => exact ⟨m, given⟩
    · rintro ⟨m, given⟩
      exact ⟨_, given, rfl⟩
  · intro none
    rw [Option.map_eq_some_iff]
    constructor
    · rintro ⟨slot, member, role⟩
      obtain ⟨t, given, -⟩ := built.isOptions_iff.mp ⟨member, role⟩
      obtain rfl := withoutMutator none t given
      exact ⟨_, given, rfl⟩
    · rintro ⟨t, given, -⟩
      exact ⟨_, built.isOptions_iff.mpr ⟨t, given, rfl⟩⟩
  · intro none
    rw [Option.map_eq_some_iff]
    constructor
    · rintro ⟨type, member⟩
      obtain ⟨t, given, -⟩ := (field_iff (by decide)).mp member
      obtain rfl := withoutMutator none t given
      exact ⟨_, given, rfl⟩
    · rintro ⟨t, given, -⟩
      obtain rfl := withoutMutator none t given
      exact ⟨_, (field_iff (by decide)).mpr ⟨_, given, rfl, rfl⟩⟩

/-! ## Uses -/

/-- The parameter lists in the code of an operation, with those around its hook if it has one. -/
def signatures (c : Contract) : Option VerbKind → List Surface
  | none => [c.surface]
  | some kind => [c.surface, c.keyFunction.surface, (c.hook kind).surface]

theorem mem_surface_of_signatures {hook : Option VerbKind} {s : Surface}
    (among : s ∈ c.signatures hook) {slot : Slot} (member : slot ∈ s.slots) :
    slot ∈ c.surface.slots := by
  cases hook with
  | none => exact List.mem_singleton.mp among ▸ member
  | some kind =>
      simp only [signatures, List.mem_cons, List.not_mem_nil, or_false] at among
      rcases among with rfl | rfl | rfl
      · exact member
      · exact (Surface.mem_only.mp member).1
      · exact (Surface.mem_without.mp member).1

/-- The types in the code of an operation: of the parameters of its functions, before the settings
wrap them, and of the options of its hook. -/
inductive WritesType (c : Contract) (hook : Option VerbKind) (type : String) : Prop
  | parameter {s : Surface} {slot : Slot} :
      s ∈ c.signatures hook → slot ∈ s.slots → slot.type = type → WritesType c hook type
  | option {kind : VerbKind} {name : String} :
      hook = some kind → (name, type) ∈ (c.hook kind).optionFields → WritesType c hook type

/-- Code that uses the helper hands the options of its mutator on. -/
theorem Assembled.writesHelper_iff
    (built : c.Assembled op o path query header queryTypes headerTypes) {hook : Option VerbKind}
    {m : Mutator} : c.WritesType hook (secondParameterType m) ↔
      ∃ own, c.transportOptions? = some (.mutator own) ∧
        secondParameterType own = secondParameterType m := by
  have handed : ∀ t, c.transportOptions? = some t → t.type = secondParameterType m →
      ∃ own, c.transportOptions? = some (.mutator own) ∧
        secondParameterType own = secondParameterType m := by
    intro t given same
    obtain ⟨own, rfl⟩ := TransportOptions.exists_mutator same
    exact ⟨own, given, same⟩
  constructor
  · intro writes
    cases writes with
    | @parameter s slot among member same =>
        have member := mem_surface_of_signatures among member
        by_cases role : slot.role = .options
        · obtain ⟨t, given, rfl⟩ := built.isOptions_iff.mp ⟨member, role⟩
          exact handed t given same
        · have unapplied := built.slot_unapplied member role
          rw [same] at unapplied
          exact absurd unapplied (secondParameterType_applied m)
    | @option kind name _ member =>
        rcases Hook.mem_optionFields member with ⟨same, -⟩ | ⟨t, given, same⟩
        · exact absurd same.symm ((c.hook kind).optionsType_ne m)
        · exact handed t given (congrArg Prod.snd same).symm
  · rintro ⟨own, given, same⟩
    obtain ⟨member, -⟩ := built.isOptions_iff.mpr ⟨_, given, rfl⟩
    refine .parameter (s := c.surface) ?_ member same
    cases hook <;> exact List.mem_cons_self

end Built

end Contract

/-! ## Files -/

namespace Flavor

variable {f : Flavor} {profile : Profile}

/-- The code of a contract is written with the helper, for this mutator. -/
def UsesHelper (f : Flavor) (profile : Profile) (c : Contract) (m : Mutator) : Prop :=
  ∃ hook, f.Writes profile c hook ∧ c.WritesType hook (secondParameterType m)

/-- The flag decides whether a header has the helper; nothing else in a header looks like it. -/
theorem helper_within_header (builtIn : f = .axios profile ∨ f = .swr profile)
    (flags : HeaderFlags) :
    Within secondParameterHelper (f.header flags) ↔ flags.takesSecondArg = true := by
  -- The helper starts with a comment, and there is no slash in what else a header may have.
  have commented : '/' ∈ secondParameterHelper.toList := by decide +kernel
  have without : ∀ text : String, '/' ∉ text.toList → ¬ Within secondParameterHelper text :=
    fun text noSlash within => noSlash (within.subset commented)
  have others : ¬ Within secondParameterHelper "" ∧
      ¬ Within secondParameterHelper (Swr.awaitedHelper ++ "\n\n" ++ "") :=
    ⟨without _ (by decide), without _ (by decide +kernel)⟩
  obtain ⟨awaited, second⟩ := flags
  cases second with
  | true =>
      refine iff_of_true ?_ rfl
      rcases builtIn with rfl | rfl
      · exact (Within.refl _).left _
      · exact ((Within.refl _).left _).right _
  | false =>
      refine iff_of_false ?_ Bool.false_ne_true
      rcases builtIn with rfl | rfl
      · exact others.1
      · cases awaited with
        | true => exact others.1
        | false => exact others.2

/-- The type of the options of a mutator stands in the parameter list of the request function,
and in the options of the hook. -/
theorem Writes.shows_helper {c : Contract} {hook : Option VerbKind}
    (writes : f.Writes profile c hook) {op : Operation} {o : Override}
    {path query header : List Slot} {queryTypes headerTypes : List Declaration}
    (built : c.Assembled op o path query header queryTypes headerTypes) {m : Mutator}
    (given : c.transportOptions? = some (.mutator m)) {text : String}
    (implements : f.Implements c text) :
    Within ("  options?: " ++ secondParameterType m ++ ",\n") text ∧
      ∀ kind, hook = some kind →
        Within ("request?: " ++ secondParameterType m) text := by
  obtain ⟨code, run, rfl⟩ := implements
  obtain ⟨-, ⟨r, request, requested⟩, hooked⟩ := writes.client_eq_ok run
  constructor
  · have part := built.options_mem_parts given request
    exact (RequestFunction.parameter_within part).trans requested
  · intro kind same
    have member : ("request", secondParameterType m) ∈ (c.hook kind).optionFields :=
      (Contract.field_iff (by decide)).mpr ⟨_, given, rfl, rfl⟩
    have declared : Within (c.hook kind).optionsParameter (c.hook kind).render :=
      (((Within.refl _).right _).left _).trans (c.hook kind).optionsParameter_within
    exact ((Hook.field_within member).trans declared).trans (hooked kind same)

/-- A file and its header, where the helper is declared for what uses it. -/
structure HelperMatches (f : Flavor) (profile : Profile) (contracts : List Contract)
    (file : ClientFile) : Prop where
  /-- All contracts are written, in order. -/
  written : List.Forall₂ f.Implements contracts file.implementations
  declared : Within secondParameterHelper file.header ↔
    ∃ c ∈ contracts, ∃ m, f.UsesHelper profile c m
  /-- What uses the helper uses it for its own mutator, as the type of a parameter and, in a hook,
  of a member of the options. -/
  shown : List.Forall₂ (fun c text => ∀ m, f.UsesHelper profile c m →
      (∃ own, c.mutator = some own ∧ secondParameterType own = secondParameterType m) ∧
      Within ("  options?: " ++ secondParameterType m ++ ",\n") text ∧
      ∀ kind, f.Writes profile c (some kind) →
        Within ("request?: " ++ secondParameterType m) text) contracts file.implementations
  agree : ∀ c ∈ contracts, ∀ kind, c.OptionsAgree f kind

/-- **A file declares the helper type exactly if its code uses it.** -/
theorem fileOf_helperMatches (builtIn : f = .axios profile ∨ f = .swr profile)
    {contracts : List Contract}
    (built : ∀ c ∈ contracts, ∃ op o, (Operation.contract op o).result = .ok c)
    {allMutated : Bool} {file : ClientFile}
    (run : (f.fileOf allMutated contracts).result = .ok file) :
    f.HelperMatches profile contracts file := by
  have quiet := builtIn_reportsNothing builtIn
  obtain ⟨codes, -, header, -⟩ := fileOf_adds quiet run
  obtain ⟨-, written⟩ := fileOf_eq_ok quiet run
  refine ⟨written, ?_, ?_, fun c member kind => ?_⟩
  · rw [header, helper_within_header builtIn, flags, List.any_eq_true]
    refine exists_congr fun c => and_congr_right fun member => ?_
    obtain ⟨op, o, built⟩ := built c member
    obtain ⟨path, query, header, queryTypes, headerTypes, built⟩ := Operation.contract_eq_ok built
    rw [Contract.passesSecondArg_iff]
    constructor
    · rintro ⟨m, given⟩
      obtain ⟨hook, writes⟩ := exists_writes builtIn c
      exact ⟨m, hook, writes, built.writesHelper_iff.mpr ⟨m, given, rfl⟩⟩
    · rintro ⟨m, hook, -, uses⟩
      obtain ⟨own, given, -⟩ := built.writesHelper_iff.mp uses
      exact ⟨own, given⟩
  · refine List.Forall₂.imp ?_ ((List.forall₂_and_left _ _).mpr ⟨built, written⟩)
    rintro c text ⟨⟨op, o, built⟩, implements⟩ m ⟨hook, writes, uses⟩
    obtain ⟨path, query, header, queryTypes, headerTypes, built⟩ := Operation.contract_eq_ok built
    obtain ⟨own, given, same⟩ := built.writesHelper_iff.mp uses
    rw [← same]
    refine ⟨⟨own, ?_, rfl⟩, (writes.shows_helper built given implements).1, fun kind hooked => ?_⟩
    · obtain ⟨-, ⟨-, other⟩ | ⟨m, mutator, -, handed⟩⟩ :=
        Contract.transportOptions_eq_some.mp given
      · cases other
      · cases handed
        exact mutator
    · exact (hooked.shows_helper built given implements).2 kind rfl
  · obtain ⟨op, o, built⟩ := built c member
    obtain ⟨path, query, header, queryTypes, headerTypes, built⟩ := Operation.contract_eq_ok built
    exact built.optionsAgree f kind

/-- An operation without a mutator whose presets are empty, in a file with one that has a mutator,
and in a file of its own. -/
theorem fileOf_helperMatches_rename :
    ∃ plain mutated file other,
      (Contract.renamePet.contract { requestOptions := .preset [] }).result = .ok plain ∧
      (Contract.renamePet.contract { mutator := some Contract.sender }).result = .ok mutated ∧
      ((swr ⟨true, true⟩).fileOf false [plain, mutated]).result = .ok file ∧
      ((axios ⟨true, true⟩).fileOf false [plain]).result = .ok other ∧
      (swr ⟨true, true⟩).HelperMatches ⟨true, true⟩ [plain, mutated] file ∧
      (∃ c ∈ [plain, mutated], ∃ m, (swr ⟨true, true⟩).UsesHelper ⟨true, true⟩ c m) ∧
      ¬ ∃ m, (axios ⟨true, true⟩).UsesHelper ⟨true, true⟩ plain m := by
  have runs : ∃ plain mutated file other,
      (Contract.renamePet.contract { requestOptions := .preset [] }).result = .ok plain ∧
      (Contract.renamePet.contract { mutator := some Contract.sender }).result = .ok mutated ∧
      ((swr ⟨true, true⟩).fileOf false [plain, mutated]).result = .ok file ∧
      ((axios ⟨true, true⟩).fileOf false [plain]).result = .ok other ∧
      file.header = secondParameterHelper ++ "\n\n" ∧ other.header = "" :=
    ⟨_, _, _, _, rfl, rfl, rfl, rfl, rfl, rfl⟩
  obtain ⟨plain, mutated, file, other, built, built', run, run', declares, nothing⟩ := runs
  have agreed : (swr ⟨true, true⟩).HelperMatches ⟨true, true⟩ [plain, mutated] file := by
    refine fileOf_helperMatches (Or.inr rfl) (fun c member => ?_) run
    rcases List.mem_cons.mp member with rfl | later
    · exact ⟨_, _, built⟩
    · exact ⟨_, _, List.mem_singleton.mp later ▸ built'⟩
  have alone : (axios ⟨true, true⟩).HelperMatches ⟨true, true⟩ [plain] other :=
    fileOf_helperMatches (Or.inl rfl)
      (fun c member => ⟨_, _, List.mem_singleton.mp member ▸ built⟩) run'
  refine ⟨plain, mutated, file, other, built, built', run, run', agreed, ?_, fun uses => ?_⟩
  · exact agreed.declared.mp (declares ▸ (Within.refl _).left _)
  · have within := alone.declared.mpr ⟨plain, List.mem_cons_self, uses⟩
    rw [nothing] at within
    exact absurd within (by decide +kernel)

end Flavor

end ClientForge
