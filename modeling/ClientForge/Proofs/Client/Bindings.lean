/-
# ClientForge.Proofs.Client.Bindings -- names that the imports of a file bind

A client file imports the models that its contracts name, what its code refers to in the
modules of mutators, and what it mentions of the packages of its flavor.  Each symbol is
imported once (`Proofs.Imports.Statements`), under its own name and never under an alias, so
two symbols of one name are two bindings of this name.

That models do not clash with each other, nor what packages export, is left for all files of
the flavors that come with the generator (`file_importsOnce`): models are from one module, and
the names in the packages are known.  Between a model and a package nothing keeps names apart,
and between mutators neither (`names_clash`).
-/
import ClientForge.Proofs.Client.Transport
import ClientForge.Proofs.Imports.Statements

namespace ClientForge

set_option autoImplicit false

namespace ClientFile

/-- The import statements of a file. -/
def statements (profile : Profile) (file : ClientFile) : List ImportStatement :=
  importStatements profile file.dependencies modelsSpecifier file.imports.refs

/-- All that the import statements of a file bind. -/
def bindings (profile : Profile) (file : ClientFile) : List ImportEntry :=
  (file.statements profile).flatMap ImportStatement.entries

end ClientFile

/-! ## Where symbols come from -/

/-- Where a file may import from. -/
inductive ImportOrigin where
  | models
  | mutator
  | package
  deriving DecidableEq

/-- What the files of these contracts may refer to, by its origin. -/
inductive ImportOrigin.Offers (contracts : List Contract) (dependencies : List Dependency) :
    ImportOrigin → ImportRef → Prop
  | model {c : Contract} {name : String} :
      c ∈ contracts → .model name ∈ c.imports →
      Offers contracts dependencies .models (.model name)
  | function {c : Contract} {m : Mutator} :
      c ∈ contracts → c.mutator = some m → Offers contracts dependencies .mutator m.function
  | errorType {c : Contract} {m : Mutator} :
      c ∈ contracts → c.mutator = some m → m.hasErrorType = true →
      Offers contracts dependencies .mutator (m.type "ErrorType")
  | wrapper {c : Contract} {m : Mutator} {name : String} :
      c ∈ contracts → c.mutator = some m → m.bodyTypeName = some name → name ≠ "" →
      c.body.defined = true → Offers contracts dependencies .mutator (m.type name)
  | exported {d : Dependency} {e : Export} :
      d ∈ dependencies → e ∈ d.exports → Offers contracts dependencies .package (d.ref e)

/-- The entry is for something of this origin. -/
def ImportEntry.ComesFrom (contracts : List Contract) (dependencies : List Dependency)
    (origin : ImportOrigin) (e : ImportEntry) : Prop :=
  ∃ ref, origin.Offers contracts dependencies ref ∧ ref.entry modelsSpecifier = e

/-- The statements of a file bind every symbol in use, and each of them once; a local name is
bound more than once only by mutators, or by symbols of different origins. -/
structure ClientFile.ImportsOnce (contracts : List Contract) (profile : Profile)
    (file : ClientFile) : Prop where
  lines : importLines profile file.dependencies modelsSpecifier file.imports.refs =
    (file.statements profile).map ImportStatement.render
  once : ((file.bindings profile).map ImportEntry.symbol).Nodup
  all : ∀ symbol, symbol ∈ (file.bindings profile).map ImportEntry.symbol ↔
    ∃ ref ∈ file.imports.refs, (ref.entry modelsSpecifier).symbol = symbol
  origins : ∀ e ∈ file.bindings profile,
    ∃ origin, e.ComesFrom contracts file.dependencies origin
  names : (file.bindings profile).Pairwise fun e e' => e.name = e'.name →
    ∀ origin, e.ComesFrom contracts file.dependencies origin →
      e'.ComesFrom contracts file.dependencies origin → origin = .mutator

namespace Flavor

section Files

variable {f : Flavor} {profile : Profile} {allMutated : Bool} {contracts : List Contract}
  {file : ClientFile} {ref : ImportRef}

/-- The code of an operation refers to models, to its mutator and to packages. -/
theorem Writes.offers {c : Contract} {hook : Option VerbKind} {flags : HeaderFlags}
    {code : OperationCode} {op : Operation} {o : Override}
    (built : (op.contract o).result = .ok c) (writes : f.Writes profile c hook)
    (run : (f.codeOf flags allMutated c).result = .ok code) (among : c ∈ contracts)
    (member : ref ∈ code.imports) :
    ∃ origin : ImportOrigin, origin.Offers contracts (f.dependencies allMutated) ref := by
  rcases ((writes.codeOf_eq_ok run).1 ref).mp member with named | ofMutator | used
  · obtain ⟨name, rfl⟩ := Contract.model_of_mem_imports built named
    exact ⟨_, .model among named⟩
  · cases mutator : c.mutator with
    | none =>
        rw [Contract.mutatorImports, mutator] at ofMutator
        cases ofMutator
    | some m =>
        rcases (Contract.mem_mutatorImports mutator _).mp ofMutator with
          rfl | ⟨⟨-, given⟩, rfl⟩ | ⟨name, wraps, some, defined, rfl⟩
        · exact ⟨_, .function among mutator⟩
        · exact ⟨_, .errorType among mutator given⟩
        · exact ⟨_, .wrapper among mutator wraps some defined⟩
  · obtain ⟨d, listed, found⟩ := List.mem_flatMap.mp used
    obtain ⟨e, mentioned, rfl⟩ := List.mem_map.mp found
    exact ⟨_, .exported listed (List.mem_filter.mp mentioned).1⟩

/-- So do the files. -/
theorem file_offers (builtIn : f = .axios profile ∨ f = .swr profile)
    (built : ∀ c ∈ contracts, ∃ (op : Operation) (o : Override), (op.contract o).result = .ok c)
    (run : (f.fileOf allMutated contracts).result = .ok file)
    (member : ref ∈ file.imports.refs) :
    ∃ origin : ImportOrigin, origin.Offers contracts file.dependencies ref := by
  obtain ⟨codes, each, -, dependencies, -, -, imports⟩ :=
    fileOf_adds (builtIn_reportsNothing builtIn) run
  obtain ⟨code, listed, inside⟩ := (imports ref).mp member
  obtain ⟨c, among, coded⟩ := exists_of_mem_right each listed
  obtain ⟨op, o, contract⟩ := built c among
  obtain ⟨hook, writes⟩ := exists_writes builtIn c
  rw [dependencies]
  exact writes.offers contract coded among inside

/-- No two packages export the same name. -/
theorem ref_eq_of_name (builtIn : f = .axios profile ∨ f = .swr profile) {d d' : Dependency}
    (listed : d ∈ f.dependencies allMutated) (listed' : d' ∈ f.dependencies allMutated)
    {e e' : Export} (exports : e ∈ d.exports) (exports' : e' ∈ d'.exports)
    (same : e.name = e'.name) : d.ref e = d'.ref e' := by
  have all : ∀ d ∈ axiosDependencies ++ Swr.hookDependencies, ∀ e ∈ d.exports,
      ∀ d' ∈ axiosDependencies ++ Swr.hookDependencies, ∀ e' ∈ d'.exports,
      e.name = e'.name → d.ref e = d'.ref e' := by decide +kernel
  exact all d (mem_dependencies builtIn listed) e exports d' (mem_dependencies builtIn listed') e'
    exports' same

/-- Of models, and of packages, there is one symbol for a name. -/
theorem symbol_eq_of_name (builtIn : f = .axios profile ∨ f = .swr profile)
    {origin : ImportOrigin} (other : origin ≠ .mutator) {e e' : ImportEntry}
    (first : e.ComesFrom contracts (f.dependencies allMutated) origin)
    (second : e'.ComesFrom contracts (f.dependencies allMutated) origin)
    (same : e.name = e'.name) : e.symbol = e'.symbol := by
  obtain ⟨ref, offers, rfl⟩ := first
  obtain ⟨ref', offers', rfl⟩ := second
  have names : ref.name = ref'.name := same
  suffices ref = ref' by rw [this]
  cases offers with
  | function => exact absurd rfl other
  | errorType => exact absurd rfl other
  | wrapper => exact absurd rfl other
  | model =>
      cases offers'
      exact congrArg ImportRef.model names
  | exported listed exports =>
      cases offers' with
      | exported listed' exports' =>
          exact ref_eq_of_name builtIn listed listed' exports exports' names

/-- **Imports are bound once.**  In the files of the flavors that come with the generator, all
symbols in use are imported and none of them twice.  Models do not clash with models, and what
a package exports does not clash with what packages export. -/
theorem file_importsOnce (builtIn : f = .axios profile ∨ f = .swr profile)
    (built : ∀ c ∈ contracts, ∃ (op : Operation) (o : Override), (op.contract o).result = .ok c)
    (run : (f.fileOf allMutated contracts).result = .ok file) :
    file.ImportsOnce contracts profile where
  lines := importLines_eq profile file.dependencies modelsSpecifier file.imports.refs
  once := nodup_symbols profile file.dependencies modelsSpecifier file.imports.refs
  all _ := mem_symbols
  origins e member := by
    obtain ⟨ref, listed, same⟩ := exists_ref_of_mem member
    obtain ⟨origin, offers⟩ := file_offers builtIn built run listed
    exact ⟨origin, ref, offers, same⟩
  names := by
    obtain ⟨-, -, -, dependencies, -⟩ := fileOf_adds (builtIn_reportsNothing builtIn) run
    have apart := List.pairwise_map.mp
      (nodup_symbols profile file.dependencies modelsSpecifier file.imports.refs)
    refine apart.imp fun {e e'} differ same origin first second => ?_
    by_contra other
    rw [dependencies] at first second
    exact differ (symbol_eq_of_name builtIn other first second same)

end Files

/-! ## Names that clash -/

section Clashes

variable {f : Flavor} {profile : Profile} {allMutated : Bool} {contracts : List Contract}
  {file : ClientFile} {c d : Contract} {hook : Option VerbKind}

/-- Two symbols of one name that are in use are two bindings of the name. -/
theorem not_nodup_names {ref ref' : ImportRef} (listed : ref ∈ file.imports.refs)
    (listed' : ref' ∈ file.imports.refs)
    (named : ref.isDefault = false ∧ ref'.isDefault = false) (same : ref.name = ref'.name)
    (apart : ImportGroup.specifierOf modelsSpecifier ref ≠
      ImportGroup.specifierOf modelsSpecifier ref') :
    ¬ ((file.bindings profile).map ImportEntry.name).Nodup := by
  have bound : ∀ ref ∈ file.imports.refs, ref.isDefault = false →
      ∃ e ∈ file.bindings profile, e.name = ref.name ∧
        e.symbol = .named (ImportGroup.specifierOf modelsSpecifier ref) ref.name := by
    intro ref listed named
    obtain ⟨e, member, symbol⟩ := List.mem_map.mp (mem_symbols.mpr ⟨ref, listed, rfl⟩)
    have symbol : e.symbol =
        .named (ImportGroup.specifierOf modelsSpecifier ref) ref.name := by
      rw [symbol, ImportEntry.symbol, ImportRef.entry, named]
      rfl
    exact ⟨e, member, ImportEntry.name_of_symbol symbol, symbol⟩
  obtain ⟨e, member, name, symbol⟩ := bound ref listed named.1
  obtain ⟨e', member', name', symbol'⟩ := bound ref' listed' named.2
  intro distinct
  have one : e = e' :=
    List.inj_on_of_nodup_map distinct member member' (name.trans (same.trans name'.symm))
  rw [one, symbol'] at symbol
  exact apart (ImportSymbol.named.inj symbol).1.symm

/-- What the code of an operation refers to is in use in the file. -/
theorem Writes.exists_code (writes : f.Writes profile c hook)
    (run : (f.fileOf allMutated contracts).result = .ok file) (among : c ∈ contracts) :
    ∃ code, (f.codeOf (f.flags contracts) allMutated c).result = .ok code ∧
      ∀ ref ∈ code.imports, ref ∈ file.imports.refs := by
  obtain ⟨codes, each, -, -, -, -, imports⟩ :=
    fileOf_adds (builtIn_reportsNothing writes.builtIn) run
  obtain ⟨code, listed, coded⟩ := exists_of_mem_right each.flip among
  exact ⟨code, coded, fun ref inside => (imports ref).mpr ⟨code, listed, inside⟩⟩

/-- A model may have the name of what a package exports. -/
theorem key_clash (run : ((swr profile).fileOf allMutated contracts).result = .ok file)
    (among : c ∈ contracts) {kind : VerbKind} (hooked : VerbKind.ofVerb? c.verb = some kind)
    (model : .model "Key" ∈ c.imports) :
    ¬ ((file.bindings profile).map ImportEntry.name).Nodup := by
  have writes : (swr profile).Writes profile c (some kind) := hooked ▸ .swr
  obtain ⟨code, coded, used⟩ := writes.exists_code run among
  have key : ({ name := "Key", specifier := some "swr" } : ImportRef) ∈ code.imports :=
    writes.imports_hook coded rfl List.mem_cons_self (e := { name := "Key" }) (by decide)
      (by decide +kernel) (Hook.mentions_options _).2
  have named := (writes.codeOf_eq_ok coded).1
  exact not_nodup_names (used _ ((named _).mpr (Or.inl model))) (used _ key) ⟨rfl, rfl⟩ rfl
    (by decide)

/-- Two mutators may both have an error type. -/
theorem errorType_clash (run : ((swr profile).fileOf allMutated contracts).result = .ok file)
    (among : c ∈ contracts ∧ d ∈ contracts)
    (hooked : (VerbKind.ofVerb? c.verb).isSome = true ∧ (VerbKind.ofVerb? d.verb).isSome = true)
    {m n : Mutator} (mutator : c.mutator = some m ∧ d.mutator = some n)
    (given : m.hasErrorType = true ∧ n.hasErrorType = true)
    (apart : ImportGroup.specifierOf modelsSpecifier (m.type "ErrorType") ≠
      ImportGroup.specifierOf modelsSpecifier (n.type "ErrorType")) :
    ¬ ((file.bindings profile).map ImportEntry.name).Nodup := by
  have inUse : ∀ {e : Contract} {m : Mutator}, e ∈ contracts →
      (VerbKind.ofVerb? e.verb).isSome = true → e.mutator = some m → m.hasErrorType = true →
      m.type "ErrorType" ∈ file.imports.refs := by
    intro e m among hooked mutator given
    have writes : (swr profile).Writes profile e (VerbKind.ofVerb? e.verb) := .swr
    obtain ⟨code, coded, used⟩ := writes.exists_code run among
    refine used _ (((writes.codeOf_eq_ok coded).1 _).mpr (Or.inr (Or.inl ?_)))
    exact (Contract.mem_mutatorImports mutator _).mpr (Or.inr (Or.inl ⟨⟨hooked, given⟩, rfl⟩))
  exact not_nodup_names (inUse among.1 hooked.1 mutator.1 given.1)
    (inUse among.2 hooked.2 mutator.2 given.2) ⟨rfl, rfl⟩ rfl apart

end Clashes

/-- An operation that answers with a model of the given name. -/
def readModel (name : String) : Operation where
  verb := .get
  path := .str "/model"
  id := some (.str "readModel")
  parameters := []
  requestBody := none
  responses := [⟨"200", none, [⟨.str "application/json",
    some (.object [(schemaNameKey, .str name)])⟩]⟩]
  extensions := []

/-- A file with a mutator for one of two operations. -/
theorem file_importsOnce_sender :
    ∃ c d file, (Contract.renamePet.contract { mutator := some Contract.sender }).result = .ok c ∧
      ((readModel "Pet").contract {}).result = .ok d ∧
      ((swr ⟨true, true⟩).fileOf false [c, d]).result = .ok file ∧
      file.ImportsOnce [c, d] ⟨true, true⟩ := by
  have runs : ∃ c d file,
      (Contract.renamePet.contract { mutator := some Contract.sender }).result = .ok c ∧
      ((readModel "Pet").contract {}).result = .ok d ∧
      ((swr ⟨true, true⟩).fileOf false [c, d]).result = .ok file :=
    ⟨_, _, _, rfl, rfl, rfl⟩
  obtain ⟨c, d, file, first, second, run⟩ := runs
  have built : ∀ e ∈ [c, d], ∃ (op : Operation) (o : Override), (op.contract o).result = .ok e := by
    intro e member
    rcases List.mem_pair.mp member with rfl | rfl
    · exact ⟨_, _, first⟩
    · exact ⟨_, _, second⟩
  exact ⟨c, d, file, first, second, run, file_importsOnce (Or.inr rfl) built run⟩

def loader : Mutator where
  name := "load"
  path := "./load"
  hasErrorType := true

/-- Local names are not kept apart: here a model has the name of what a package exports, and
there two mutators both have an error type. -/
theorem names_clash :
    (∃ c file, ((readModel "Key").contract {}).result = .ok c ∧
      ((swr ⟨true, true⟩).fileOf false [c]).result = .ok file ∧
      ¬ ((file.bindings ⟨true, true⟩).map ImportEntry.name).Nodup) ∧
    ∃ c d file, (Contract.renamePet.contract { mutator := some Contract.sender }).result = .ok c ∧
      ((readModel "Pet").contract { mutator := some loader }).result = .ok d ∧
      ((swr ⟨true, true⟩).fileOf false [c, d]).result = .ok file ∧
      ¬ ((file.bindings ⟨true, true⟩).map ImportEntry.name).Nodup := by
  constructor
  · have runs : ∃ c file, ((readModel "Key").contract {}).result = .ok c ∧
        ((swr ⟨true, true⟩).fileOf false [c]).result = .ok file ∧
        VerbKind.ofVerb? c.verb = some .query ∧ .model "Key" ∈ c.imports :=
      ⟨_, _, rfl, rfl, rfl, by decide +kernel⟩
    obtain ⟨c, file, built, run, hooked, model⟩ := runs
    exact ⟨c, file, built, run, key_clash run (List.mem_singleton_self c) hooked model⟩
  · have runs : ∃ c d file,
        (Contract.renamePet.contract { mutator := some Contract.sender }).result = .ok c ∧
        ((readModel "Pet").contract { mutator := some loader }).result = .ok d ∧
        ((swr ⟨true, true⟩).fileOf false [c, d]).result = .ok file ∧
        VerbKind.ofVerb? c.verb = some .mutation ∧ VerbKind.ofVerb? d.verb = some .query ∧
        c.mutator = some Contract.sender ∧ d.mutator = some loader :=
      ⟨_, _, _, rfl, rfl, rfl, rfl, rfl, rfl, rfl⟩
    obtain ⟨c, d, file, first, second, run, hooked, hooked', sends, loads⟩ := runs
    refine ⟨c, d, file, first, second, run, ?_⟩
    refine errorType_clash run ⟨List.mem_cons_self, List.mem_cons_of_mem _ List.mem_cons_self⟩
      ⟨?_, ?_⟩ ⟨sends, loads⟩ ⟨rfl, rfl⟩ (by decide)
    · rw [hooked]
      rfl
    · rw [hooked']
      rfl

end Flavor

end ClientForge
