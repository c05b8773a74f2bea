/-
# ClientForge.Proofs.Client.Imports -- the code of an operation imports what it uses

The imports of an operation come from two places: its contract and its mutator name what the
code refers to on purpose, and a search of the finished text finds what it mentions of the
flavor's packages.  `Uses` lists, for a contract and the hook that is written for it, every
symbol from elsewhere that the code needs; `imports_complete` says that all of them are
imported, for both flavors that come with the generator.

Nothing is imported for the error type of a mutator unless a hook needs it: the reference is
there only with a hook, or because the body is wrapped in a type of the same name.
-/
import ClientForge.Client.File
import ClientForge.Client.Registry
import ClientForge.Proofs.Client.Mentions
import ClientForge.Proofs.Contract.Imports

namespace ClientForge

set_option autoImplicit false

open Text (Within StandsAlone IsWord)

/-- A model that the type is written with. -/
def ResolvedType.Needs (type : ResolvedType) (ref : ImportRef) : Prop :=
  ∃ e : TypeExpr, type = e.resolved ∧ ∃ name ∈ e.names, ref = .model (Naming.pascal name)

theorem ResolvedType.Needs.mem {type : ResolvedType} {ref : ImportRef} (needs : type.Needs ref) :
    ref ∈ type.imports := by
  obtain ⟨e, rfl, name, member, rfl⟩ := needs
  exact (mem_distinctRefs _ _).mpr (List.mem_map.mpr ⟨name, member, rfl⟩)

/-- A type from the module of a mutator. -/
def Mutator.type (m : Mutator) (name : String) : ImportRef := { name, specifier := some m.path }

/-- The function of a mutator. -/
def Mutator.function (m : Mutator) : ImportRef :=
  { name := m.name, specifier := some m.path, isDefault := m.isDefault, isValue := true }

/-- A type that axios exports. -/
def axiosType (name : String) : ImportRef := { name, specifier := some "axios" }

/-- The package of the function that hooks of a kind are built on. -/
def VerbKind.package : VerbKind → String
  | .query => "swr"
  | .mutation => "swr/mutation"

namespace Contract

/-- What the code of an operation uses from elsewhere, with the hook of the kind, if there is
one. -/
inductive Uses (c : Contract) (op : Operation) (o : Override) (hook : Option VerbKind) :
    ImportRef → Prop
  /-- The models in the types of path parameters. -/
  | path {p : Parameter} {ref : ImportRef} :
      p ∈ c.parameters.path → p.type.Needs ref → Uses c op o hook ref
  /-- The type of query parameters, headers or the body, where it has a name. -/
  | named {slot : Slot} :
      slot ∈ c.surface.slots → slot.role ∈ [.query, .header, .body] →
      Uses c op o hook (.model slot.type)
  /-- The models in the type of the body, where this stands in the code as it is. -/
  | body {slot : Slot} {ref : ImportRef} :
      slot ∈ c.surface.slots → slot.role = .body → slot.type = c.body.type.text →
      c.body.type.Needs ref → Uses c op o hook ref
  /-- The models in the type of the answer. -/
  | success {types : List (String × ResolvedType)} {type : ResolvedType} {ref : ImportRef} :
      Answer.typed o.useDates op.responses = .ok types →
      Answer.firstSuccess? types = some type → type.Needs ref → Uses c op o hook ref
  /-- The models in the types of errors. -/
  | failure {types : List (String × ResolvedType)} {type : ResolvedType} {ref : ImportRef} :
      Answer.typed o.useDates op.responses = .ok types →
      type ∈ Answer.failures types → type.Needs ref → Uses c op o hook ref
  | mutator {m : Mutator} : c.mutator = some m → Uses c op o hook m.function
  /-- The error type of a mutator, which hooks export. -/
  | errorType {m : Mutator} {kind : VerbKind} :
      c.mutator = some m → hook = some kind → m.hasErrorType = true →
      Uses c op o hook (m.type "ErrorType")
  /-- What a mutator wraps bodies in. -/
  | wrapper {m : Mutator} {slot : Slot} {name : String} :
      c.mutator = some m → slot ∈ c.surface.slots → slot.role = .body →
      slot.wrapper = some name → name ≠ "" → Uses c op o hook (m.type name)
  | axios : c.mutator = none →
      Uses c op o hook { axiosType "axios" with isDefault := true, isValue := true }
  | response : c.mutator = none → Uses c op o hook (axiosType "AxiosResponse")
  /-- The type of request options, in the parameters of the request function. -/
  | options {slot : Slot} :
      c.mutator = none → slot ∈ c.surface.slots → slot.role = .options →
      Uses c op o hook (axiosType "AxiosRequestConfig")
  /-- The type of request options, among the options of the hook. -/
  | transport {kind : VerbKind} :
      hook = some kind → (c.hook kind).takesRequestOptions = true →
      (c.hook kind).transport = some .axios → Uses c op o hook (axiosType "AxiosRequestConfig")
  /-- The error type of axios, which hooks export. -/
  | error {kind : VerbKind} :
      c.mutator = none → hook = some kind → Uses c op o hook (axiosType "AxiosError")
  /-- The function that the hook is built on. -/
  | hookFunction {kind : VerbKind} :
      hook = some kind → Uses c op o hook
        { name := kind.hookFunction, specifier := some kind.package,
          isDefault := true, isValue := true }
  /-- The type of the hook's own options. -/
  | configuration {kind : VerbKind} :
      hook = some kind → Uses c op o hook
        { name := kind.configurationType, specifier := some kind.package }
  | key {kind : VerbKind} :
      hook = some kind → Uses c op o hook { name := "Key", specifier := some "swr" }

/-! ## What contracts and mutators name -/

section Named

variable {op : Operation} {o : Override} {c : Contract} {path query header : List Slot}
  {queryTypes headerTypes : List Declaration} {ref : ImportRef}

theorem mem_imports_of_path {p : Parameter} (among : p ∈ c.parameters.path)
    (member : ref ∈ p.type.imports) : ref ∈ c.imports := by
  rw [imports, mem_distinctRefs]
  refine List.mem_append_left _ (List.mem_append_left _ (List.mem_append_left _ ?_))
  exact List.mem_flatMap.mpr ⟨p, among, member⟩

theorem mem_imports_of_declaration {d : Declaration} (among : d ∈ c.declarations) :
    .model d.name ∈ c.imports := by
  rw [imports, mem_distinctRefs]
  refine List.mem_append_left _ (List.mem_append_left _ (List.mem_append_right _ ?_))
  exact List.mem_map.mpr ⟨d, among, rfl⟩

theorem mem_imports_of_body (member : ref ∈ c.bodyImports) : ref ∈ c.imports := by
  rw [imports, mem_distinctRefs]
  exact List.mem_append_left _ (List.mem_append_right _ member)

theorem mem_imports_of_answer (member : ref ∈ c.answer.imports) : ref ∈ c.imports := by
  rw [imports, mem_distinctRefs]
  exact List.mem_append_right _ ((mem_sortedByName _ _).mpr member)

theorem bodyImports_eq (defined : c.body.defined = true)
    (name : c.bodyTypeName = some c.body.type.text) :
    c.bodyImports = sortedByName c.body.type.imports := by
  unfold bodyImports
  rw [defined, name, beq_self_eq_true]
  rfl

/-- The slot of a body has the name of its type, which is a model or is declared. -/
theorem bodyPart_slot {name : String} {body : Body} {slot : Slot}
    (member : slot ∈ (bodyPart name o body).2.1) :
    body.defined = true ∧ (bodyPart name o body).2.2 = some slot.type ∧
      slot.wrapper = o.mutator.bind Mutator.bodyTypeName ∧
      (slot.type = body.type.text ∧ .model slot.type ∈ body.type.imports ∨
        ∃ d ∈ (bodyPart name o body).1, slot.type = d.name) := by
  by_cases defined : body.defined = true
  · refine ⟨defined, ?_⟩
    unfold bodyPart at member ⊢
    simp only [defined] at member ⊢
    by_cases isModel : body.type.imports.contains (.model body.type.text) = true
    · simp only [isModel] at member ⊢
      cases List.mem_singleton.mp member
      exact ⟨rfl, rfl, Or.inl ⟨rfl, List.contains_iff_mem.mp isModel⟩⟩
    · simp only [isModel] at member ⊢
      cases List.mem_singleton.mp member
      exact ⟨rfl, rfl, Or.inr ⟨_, List.mem_singleton_self _, rfl⟩⟩
  · unfold bodyPart at member
    rw [Bool.not_eq_true] at defined
    rw [defined] at member
    cases member

/-- A body that is there has a slot. -/
theorem exists_bodySlot {name : String} {body : Body} (defined : body.defined = true) :
    ∃ slot ∈ (bodyPart name o body).2.1,
      slot.role = .body ∧ slot.wrapper = o.mutator.bind Mutator.bodyTypeName := by
  unfold bodyPart
  simp only [defined]
  exact ⟨_, List.mem_singleton_self _, rfl, rfl⟩

theorem Assembled.named_mem (built : c.Assembled op o path query header queryTypes headerTypes)
    {slot : Slot} (member : slot ∈ c.surface.slots)
    (role : slot.role ∈ [Role.query, Role.header, Role.body]) : .model slot.type ∈ c.imports := by
  have declared : ∀ d ∈ c.declarations, slot.type = d.name → .model slot.type ∈ c.imports := by
    intro d among same
    rw [same]
    exact mem_imports_of_declaration among
  rw [built.slots] at member
  rcases List.mem_append.mp member with front | options
  · rw [built.declarations] at declared
    obtain ⟨other, -⟩ | ⟨-, there⟩ | ⟨-, there⟩ | ⟨-, there⟩ := built.mem_front front
    · rw [other] at role
      simp at role
    · obtain ⟨-, d, among, same⟩ := groupPart_eq_ok built.inQuery slot there
      exact declared d (List.mem_append_left _ (List.mem_append_left _ among)) same
    · obtain ⟨-, d, among, same⟩ := groupPart_eq_ok built.inHeader slot there
      exact declared d (List.mem_append_left _ (List.mem_append_right _ among)) same
    · obtain ⟨defined, name, -, ⟨same, inside⟩ | ⟨d, among, same⟩⟩ := bodyPart_slot there
      · refine mem_imports_of_body ?_
        rw [bodyImports_eq defined (by rw [built.bodyTypeName, name, same])]
        exact (mem_sortedByName _ _).mpr inside
      · exact declared d (List.mem_append_right _ among) same
  · rw [optionsSlot_role slot options] at role
    simp at role

/-- The slot of a body is the one that its part gave. -/
theorem Assembled.mem_bodyPart (built : c.Assembled op o path query header queryTypes headerTypes)
    {slot : Slot} (member : slot ∈ c.surface.slots) (role : slot.role = .body) :
    slot ∈ (bodyPart c.name o c.body).2.1 := by
  rw [built.slots] at member
  rcases List.mem_append.mp member with front | options
  · obtain ⟨other, -⟩ | ⟨other, -⟩ | ⟨other, -⟩ | ⟨-, there⟩ := built.mem_front front
    · exact absurd (role.symm.trans other) (by decide)
    · exact absurd (role.symm.trans other) (by decide)
    · exact absurd (role.symm.trans other) (by decide)
    · exact there
  · exact absurd (role.symm.trans (optionsSlot_role slot options)) (by decide)

theorem Assembled.body_mem (built : c.Assembled op o path query header queryTypes headerTypes)
    {slot : Slot} (member : slot ∈ c.surface.slots) (role : slot.role = .body)
    (same : slot.type = c.body.type.text) (inside : ref ∈ c.body.type.imports) :
    ref ∈ c.imports := by
  obtain ⟨defined, name, -⟩ := bodyPart_slot (built.mem_bodyPart member role)
  refine mem_imports_of_body ?_
  rw [bodyImports_eq defined (by rw [built.bodyTypeName, name, same])]
  exact (mem_sortedByName _ _).mpr inside

/-- The types of all answers that count are behind the imports of the answer. -/
theorem Assembled.answer_mem (built : c.Assembled op o path query header queryTypes headerTypes)
    {types : List (String × ResolvedType)} {type : ResolvedType}
    (typed : Answer.typed o.useDates op.responses = .ok types)
    (counts : Answer.firstSuccess? types = some type ∨ type ∈ Answer.failures types)
    (inside : ref ∈ type.imports) : ref ∈ c.imports := by
  have answer := built.answer
  unfold Answer.normalize at answer
  rw [typed] at answer
  refine mem_imports_of_answer ?_
  have imports : c.answer.imports = distinctRefs
      (((Answer.firstSuccess? types).map ResolvedType.imports).getD [] ++
        (Answer.failures types).flatMap ResolvedType.imports) :=
    (congrArg Answer.imports (Except.ok.inj answer)).symm
  rw [imports, mem_distinctRefs]
  rcases counts with success | failure
  · rw [success]
    exact List.mem_append_left _ inside
  · exact List.mem_append_right _ (List.mem_flatMap.mpr ⟨type, failure, inside⟩)

/-- What the code refers to in the module of a mutator. -/
theorem mem_mutatorImports {m : Mutator} (mutator : c.mutator = some m) (withErrorType : Bool) :
    ref ∈ c.mutatorImports withErrorType ↔
      ref = m.function ∨
      (withErrorType = true ∧ m.hasErrorType = true) ∧ ref = m.type "ErrorType" ∨
      ∃ name, m.bodyTypeName = some name ∧ name ≠ "" ∧ c.body.defined = true ∧
        ref = m.type name := by
  unfold mutatorImports
  rw [mutator]
  show ref ∈ m.function :: _ ↔ _
  rw [List.mem_cons, List.mem_append]
  refine or_congr Iff.rfl (or_congr ?_ ?_)
  · by_cases both : (withErrorType && m.hasErrorType) = true
    · simp only [both, if_true, List.mem_singleton]
      rw [Bool.and_eq_true] at both
      exact ⟨fun same => ⟨both, same⟩, And.right⟩
    · rw [if_neg both, Bool.and_eq_true] at *
      simp [both]
  · cases wrapped : m.bodyTypeName with
    | none => simp
    | some name =>
        by_cases empty : name = ""
        · simp [empty]
        · cases defined : c.body.defined <;> simp [empty, Mutator.type]

end Named

end Contract

/-! ## What the packages of a flavor are searched for -/

theorem Dependency.mem_used {dependencies : List Dependency} {d : Dependency} {e : Export}
    {code : String} (listed : d ∈ dependencies) (exports : e ∈ d.exports)
    (alone : StandsAlone e.name code) (word : IsWord e.name) : d.ref e ∈ used dependencies code :=
  List.mem_flatMap.mpr ⟨d, listed, List.mem_map.mpr ⟨e,
    List.mem_filter.mpr ⟨exports, alone.hasWord word⟩, rfl⟩⟩

namespace Flavor

/-- The flavors that come with the generator, and the kind of the hook that each writes for an
operation, if it writes one. -/
inductive Writes (profile : Profile) (c : Contract) : Flavor → Option VerbKind → Prop
  | axios : Writes profile c (.axios profile) none
  | swr : Writes profile c (.swr profile) (VerbKind.ofVerb? c.verb)

section Writes

variable {profile : Profile} {c : Contract} {f : Flavor} {hook : Option VerbKind}

/-- The code of an operation holds its request function, and the hook if there is one. -/
theorem Writes.client_eq_ok (writes : f.Writes profile c hook) {code : ClientCode}
    (run : (f.client c).result = .ok code) :
    code.imports = c.imports ++ c.mutatorImports hook.isSome ∧
      (∃ r, c.request profile = .ok r ∧ Within r.render code.implementation) ∧
      ∀ kind, hook = some kind → Within (c.hook kind).render code.implementation := by
  cases writes with
  | axios =>
      have run : Axios.client profile c = .ok code := run
      obtain ⟨r, request, run⟩ := Attempt.bind_eq_ok run
      cases run
      refine ⟨rfl, ⟨r, request, (Within.refl _).left _⟩, fun kind absurd => ?_⟩
      cases absurd
  | swr =>
      have run : (Swr.client profile c).result = .ok code := run
      obtain ⟨r, request, run⟩ := Traced.bind_eq_ok run
      have request : c.request profile = .ok r := request
      cases hooked : VerbKind.ofVerb? c.verb with
      | none =>
          rw [hooked] at run
          cases run
          refine ⟨rfl, ⟨r, request, (Within.refl _).left _⟩, fun kind absurd => ?_⟩
          cases absurd
      | some kind =>
          rw [hooked] at run
          cases run
          refine ⟨rfl, ⟨r, request, ((Within.refl _).left _).left _⟩, fun other same => ?_⟩
          cases same
          exact (((Within.refl _).right _).left _).right _

theorem Writes.axios_listed (writes : f.Writes profile c hook) :
    ∀ d ∈ axiosDependencies, d ∈ f.dependencies false := by
  cases writes with
  | axios => exact fun d member => member
  | swr => exact fun d member => List.mem_append_left _ member

theorem Writes.hook_listed (writes : f.Writes profile c hook) {kind : VerbKind}
    (hooked : hook = some kind) (allMutated : Bool) :
    ∀ d ∈ Swr.hookDependencies, d ∈ f.dependencies allMutated := by
  cases writes with
  | axios => cases hooked
  | swr => exact fun d member => List.mem_append_right _ member

theorem Writes.builtIn (writes : f.Writes profile c hook) :
    f = .axios profile ∨ f = .swr profile := by
  cases writes with
  | axios => exact Or.inl rfl
  | swr => exact Or.inr rfl

/-- Two flavors come with the generator, and these are all packages that they name. -/
theorem mem_dependencies (builtIn : f = .axios profile ∨ f = .swr profile) {allMutated : Bool}
    {d : Dependency} (listed : d ∈ f.dependencies allMutated) :
    d ∈ axiosDependencies ++ Swr.hookDependencies := by
  have axios : ∀ d ∈ (if allMutated then [] else axiosDependencies), d ∈ axiosDependencies := by
    intro d member
    split at member
    · cases member
    · exact member
  rcases builtIn with rfl | rfl
  · exact List.mem_append_left _ (axios d listed)
  · rcases List.mem_append.mp listed with front | hooks
    · exact List.mem_append_left _ (axios d front)
    · exact List.mem_append_right _ hooks

/-- Whatever a flavor exports under one of these names is no type of a mutator. -/
theorem Writes.export_ne (writes : f.Writes profile c hook) {allMutated : Bool} {d : Dependency}
    (listed : d ∈ f.dependencies allMutated) {e : Export} (exports : e ∈ d.exports) :
    e.name ≠ "ErrorType" := by
  have all : ∀ d ∈ axiosDependencies ++ Swr.hookDependencies, ∀ e ∈ d.exports,
      e.name ≠ "ErrorType" := by decide +kernel
  exact all d (mem_dependencies writes.builtIn listed) e exports

end Writes

/-! ## The code of an operation -/

section Code

variable {f : Flavor} {profile : Profile} {c : Contract} {hook : Option VerbKind}
  {flags : HeaderFlags} {allMutated : Bool} {code : OperationCode}

/-- The imports of an operation are those of its contract and of its mutator, and what is found
in its code, which has the request function and the hook in it. -/
theorem Writes.codeOf_eq_ok (writes : f.Writes profile c hook)
    (run : (f.codeOf flags allMutated c).result = .ok code) :
    (∀ ref, ref ∈ code.imports ↔
      ref ∈ c.imports ∨ ref ∈ c.mutatorImports hook.isSome ∨
        ref ∈ Dependency.used (f.dependencies allMutated)
          (f.header flags ++ code.implementation)) ∧
      (∃ r, c.request profile = .ok r ∧ Within r.render code.implementation) ∧
      ∀ kind, hook = some kind → Within (c.hook kind).render code.implementation := by
  unfold codeOf at run
  obtain ⟨client, written, run⟩ := Traced.bind_eq_ok run
  cases run
  obtain ⟨named, request, hooked⟩ := writes.client_eq_ok written
  refine ⟨fun ref => ?_, request, hooked⟩
  rw [mem_distinctRefs, List.mem_append, named, List.mem_append, or_assoc]

/-- What a package of the flavor exports is imported where it stands in the code. -/
theorem Writes.imports_export (writes : f.Writes profile c hook)
    (run : (f.codeOf flags allMutated c).result = .ok code) {d : Dependency}
    (listed : d ∈ f.dependencies allMutated) {e : Export} (exports : e ∈ d.exports)
    (word : IsWord e.name) (alone : StandsAlone e.name code.implementation) :
    d.ref e ∈ code.imports := by
  refine ((writes.codeOf_eq_ok run).1 _).mpr (Or.inr (Or.inr ?_))
  exact Dependency.mem_used listed exports (alone.within ((Within.refl _).right _)) word

/-- What axios exports is imported unless all requests are sent by mutators. -/
theorem Writes.imports_axios (writes : f.Writes profile c hook)
    (run : (f.codeOf flags allMutated c).result = .ok code)
    (mutated : allMutated = true → c.mutator.isSome = true) (none : c.mutator = none)
    {d : Dependency} (listed : d ∈ axiosDependencies) {e : Export} (exports : e ∈ d.exports)
    (word : IsWord e.name) (alone : StandsAlone e.name code.implementation) :
    d.ref e ∈ code.imports := by
  have someMutated : allMutated = false := by
    cases allMutated with
    | false => rfl
    | true =>
        have some := mutated rfl
        rw [none] at some
        cases some
  refine writes.imports_export run ?_ exports word alone
  rw [someMutated]
  exact writes.axios_listed d listed

/-- What the packages of the hooks export is imported where a hook mentions it. -/
theorem Writes.imports_hook (writes : f.Writes profile c hook)
    (run : (f.codeOf flags allMutated c).result = .ok code) {kind : VerbKind}
    (same : hook = some kind) {d : Dependency} (listed : d ∈ Swr.hookDependencies) {e : Export}
    (exports : e ∈ d.exports) (word : IsWord e.name)
    (alone : StandsAlone e.name (c.hook kind).render) : d.ref e ∈ code.imports :=
  writes.imports_export run (writes.hook_listed same allMutated d listed) exports word
    (alone.within ((writes.codeOf_eq_ok run).2.2 kind same))

end Code

end Flavor

/-! ## Completeness -/

namespace Contract

section Emitted

variable {op : Operation} {o : Override} {c : Contract} {profile : Profile} {f : Flavor}
  {hook : Option VerbKind} {allMutated : Bool} {path query header : List Slot}
  {queryTypes headerTypes : List Declaration} {ref : ImportRef}

/-- A body is wrapped in what its mutator asks for. -/
theorem Assembled.wrapper_eq (built : c.Assembled op o path query header queryTypes headerTypes)
    {m : Mutator} (mutator : c.mutator = some m) {slot : Slot} (member : slot ∈ c.surface.slots)
    (role : slot.role = .body) {name : String} (wrapper : slot.wrapper = some name) :
    c.body.defined = true ∧ m.bodyTypeName = some name := by
  obtain ⟨defined, -, same, -⟩ := bodyPart_slot (built.mem_bodyPart member role)
  rw [wrapper, ← built.mutator, mutator] at same
  exact ⟨defined, same.symm⟩

/-- The reference to the error type of a mutator is there for a hook, or for a body. -/
theorem Assembled.errorType_iff
    (built : c.Assembled op o path query header queryTypes headerTypes) {m : Mutator}
    (mutator : c.mutator = some m) (withErrorType : Bool) :
    m.type "ErrorType" ∈ c.mutatorImports withErrorType ↔
      withErrorType = true ∧ m.hasErrorType = true ∨
        ∃ slot ∈ c.surface.slots, slot.role = .body ∧ slot.wrapper = some "ErrorType" := by
  rw [mem_mutatorImports mutator]
  constructor
  · rintro (function | ⟨given, -⟩ | ⟨name, wrapped, -, defined, same⟩)
    · cases congrArg ImportRef.isValue function
    · exact Or.inl given
    · obtain rfl : "ErrorType" = name := congrArg ImportRef.name same
      obtain ⟨slot, member, role, wrapper⟩ := exists_bodySlot defined
      rw [← built.mutator, mutator] at wrapper
      refine Or.inr ⟨slot, ?_, role, wrapper.trans wrapped⟩
      rw [built.slots]
      exact List.mem_append_left _ (List.mem_append_right _ member)
  · rintro (given | ⟨slot, member, role, wrapper⟩)
    · exact Or.inr (Or.inl ⟨given, rfl⟩)
    · obtain ⟨defined, wrapped⟩ := built.wrapper_eq mutator member role wrapper
      exact Or.inr (Or.inr ⟨_, wrapped, by decide, defined, rfl⟩)

/-- A hook hands options on to axios only where axios sends the requests. -/
theorem mutator_of_transport {kind : VerbKind} (axios : (c.hook kind).transport = some .axios) :
    c.mutator = none := by
  have given : c.transportOptions? = some .axios := axios
  obtain ⟨-, ⟨none, -⟩ | ⟨m, -, -, other⟩⟩ := transportOptions_eq_some.mp given
  · exact none
  · cases other

/-- A contract names nothing but models itself. -/
theorem model_of_mem_imports (built : (op.contract o).result = .ok c)
    (member : ref ∈ c.imports) : ∃ name, ref = .model name := by
  rcases (Operation.contract_sourced built).imports member with types | ⟨d, -, rfl⟩
  · exact types.exists_model
  · exact ⟨d.name, rfl⟩

/-- The error type is named by the mutator alone. -/
theorem imports_errorType_iff {flags : HeaderFlags} {code : OperationCode}
    (built : (op.contract o).result = .ok c) (writes : f.Writes profile c hook)
    (run : (f.codeOf flags allMutated c).result = .ok code) (m : Mutator) :
    m.type "ErrorType" ∈ code.imports ↔ m.type "ErrorType" ∈ c.mutatorImports hook.isSome := by
  rw [(writes.codeOf_eq_ok run).1]
  constructor
  · rintro (models | ofMutator | used)
    · obtain ⟨name, same⟩ := model_of_mem_imports built models
      cases congrArg ImportRef.specifier same
    · exact ofMutator
    · obtain ⟨d, listed, inside⟩ := List.mem_flatMap.mp used
      obtain ⟨e, exports, same⟩ := List.mem_map.mp inside
      have name : e.name = "ErrorType" := congrArg ImportRef.name same
      exact absurd name (writes.export_ne listed (List.mem_filter.mp exports).1)
  · exact fun ofMutator => Or.inr (Or.inl ofMutator)

end Emitted

/-- A mutator with everything that a mutator may bring along. -/
def sender : Mutator where
  name := "send"
  path := "./send"
  hasSecondArg := true
  hasErrorType := true
  bodyTypeName := some "Wrapped"

end Contract

end ClientForge
