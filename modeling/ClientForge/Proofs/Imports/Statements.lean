/-
# ClientForge.Proofs.Imports.Statements -- what import statements bind

The lines of an import block are the texts of statements, of which there are four forms
(`ImportStatement`).  A statement takes symbols from a module, each under a local name
(`ImportEntry`).  Without an alias the local name is the name of the symbol, except for the
default of a module: it has no name of its own and takes the one that it is asked for by.

References are told apart by the symbol, not by the local name.  So a block has one entry for
every symbol that is referred to (`nodup_symbols`, `mem_symbols`): groups are of different
modules, and within a group there is one default, and the other names are without repeats.
Nothing of the kind holds of local names.
-/
import ClientForge.Proofs.Imports.Order

namespace ClientForge

set_option autoImplicit false

/-! ## Statements -/

/-- What a module exports. -/
inductive ImportSymbol where
  | default (module : String)
  | named (module name : String)
  deriving DecidableEq

def ImportSymbol.module : ImportSymbol → String
  | default module => module
  | named module _ => module

/-- What a statement takes from a module, and the local name that it binds. -/
structure ImportEntry where
  module : String
  name : String
  isDefault : Bool
  deriving DecidableEq

/-- The symbol that an entry stands for. -/
def ImportEntry.symbol (e : ImportEntry) : ImportSymbol :=
  if e.isDefault then .default e.module else .named e.module e.name

@[simp] theorem ImportEntry.symbol_module (e : ImportEntry) : e.symbol.module = e.module := by
  unfold symbol
  split <;> rfl

/-- All but a default keeps its name. -/
theorem ImportEntry.name_of_symbol {e : ImportEntry} {module name : String}
    (symbol : e.symbol = .named module name) : e.name = name := by
  unfold ImportEntry.symbol at symbol
  split at symbol
  · cases symbol
  · exact (ImportSymbol.named.inj symbol).2

/-- An import statement. -/
inductive ImportStatement where
  | default (name module : String)
  /-- A default that is the module itself. -/
  | whole (name module : String)
  | named (typesOnly : Bool) (names : List String) (module : String)
  | mixed (name : String) (names : List String) (module : String)
  deriving DecidableEq

namespace ImportStatement

def fromText (module : String) : String := " from '" ++ module ++ "';"

def render : ImportStatement → String
  | default name module => "import " ++ name ++ fromText module
  | whole name module => "import * as " ++ name ++ fromText module
  | named typesOnly names module =>
    (if typesOnly then "import type " else "import ") ++ ImportGroup.braced names ++
      fromText module
  | mixed name names module =>
    "import " ++ name ++ ", " ++ ImportGroup.braced names ++ fromText module

/-- The names in the braces of a statement. -/
def bracedEntries (module : String) (names : List String) : List ImportEntry :=
  names.map fun name => ⟨module, name, false⟩

/-- All that a statement binds. -/
def entries : ImportStatement → List ImportEntry
  | default name module => [⟨module, name, true⟩]
  | whole name module => [⟨module, name, true⟩]
  | named _ names module => bracedEntries module names
  | mixed name names module => ⟨module, name, true⟩ :: bracedEntries module names

end ImportStatement

/-- The entry for a reference. -/
def ImportRef.entry (models : String) (ref : ImportRef) : ImportEntry :=
  ⟨ImportGroup.specifierOf models ref, ref.name, ref.isDefault⟩

namespace ImportGroup

open ImportStatement (bracedEntries)

/-- The statement for the symbols besides the default. -/
def namedStatements (g : ImportGroup) : List ImportStatement :=
  if g.named.isEmpty then [] else [.named g.typesOnly g.named g.specifier]

/-- The statements of a module. -/
def statements (profile : Profile) (dependencies : List Dependency) (g : ImportGroup) :
    List ImportStatement :=
  match g.default? with
  | none => g.namedStatements
  | some ref =>
    if Dependency.isSynthetic dependencies g.specifier ref.name && !profile.syntheticDefaults
    then .whole ref.name g.specifier :: g.namedStatements
    else if g.named.isEmpty then [.default ref.name g.specifier]
    else [.mixed ref.name g.named g.specifier]

/-- All that the statements of a module bind. -/
def entries (g : ImportGroup) : List ImportEntry :=
  (g.default?.map fun ref => ⟨g.specifier, ref.name, true⟩).toList ++
    bracedEntries g.specifier g.named

section Group

variable {profile : Profile} {dependencies : List Dependency} {g : ImportGroup}

theorem namedLines_eq : g.namedLines = g.namedStatements.map ImportStatement.render := by
  unfold namedLines namedStatements
  split <;> rfl

/-- The lines of a module are the texts of its statements. -/
theorem lines_eq (profile : Profile) (dependencies : List Dependency) (g : ImportGroup) :
    g.lines profile dependencies =
      (g.statements profile dependencies).map ImportStatement.render := by
  unfold lines statements
  cases g.default? with
  | none => exact namedLines_eq
  | some ref =>
      dsimp only
      split
      · rw [namedLines_eq]
        rfl
      · split <;> rfl

theorem namedStatements_entries :
    g.namedStatements.flatMap ImportStatement.entries = bracedEntries g.specifier g.named := by
  unfold namedStatements
  split
  · rename_i none
    rw [List.isEmpty_iff.mp none]
    rfl
  · exact List.append_nil _

/-- In whatever form a module is imported, the same is bound. -/
theorem statements_entries :
    (g.statements profile dependencies).flatMap ImportStatement.entries = g.entries := by
  unfold statements entries
  cases g.default? with
  | none => exact namedStatements_entries
  | some ref =>
      dsimp only
      split
      · rw [List.flatMap_cons, namedStatements_entries]
        rfl
      · split
        · rename_i none
          rw [List.isEmpty_iff.mp none]
          rfl
        · exact List.append_nil _

/-! ## Symbols of a module -/

theorem nodup_named (g : ImportGroup) : g.named.Nodup :=
  (List.mergeSort_perm _ _).nodup_iff.mpr (nodup_eraseDups _)

theorem mem_named {name : String} :
    name ∈ g.named ↔ ∃ ref ∈ g.refs, ref.isDefault = false ∧ ref.name = name := by
  simp [named, and_assoc]

/-- A module gives each of its symbols once. -/
theorem nodup_entries (g : ImportGroup) : (g.entries.map ImportEntry.symbol).Nodup := by
  have braced : (bracedEntries g.specifier g.named).map ImportEntry.symbol =
      g.named.map (.named g.specifier) := List.map_map
  have apart : (g.named.map (ImportSymbol.named g.specifier)).Nodup :=
    g.nodup_named.map fun name other same => (ImportSymbol.named.inj same).2
  unfold entries
  rw [List.map_append, braced]
  cases g.default? with
  | none => exact apart
  | some ref =>
      refine List.nodup_cons.mpr ⟨?_, apart⟩
      rintro among
      obtain ⟨name, -, other⟩ := List.mem_map.mp among
      cases other

theorem module_of_mem {e : ImportEntry} (member : e ∈ g.entries) : e.module = g.specifier := by
  rcases List.mem_append.mp member with default | named
  · obtain ⟨ref, -, rfl⟩ := Option.map_eq_some_iff.mp (Option.mem_toList.mp default)
    rfl
  · obtain ⟨name, -, rfl⟩ := List.mem_map.mp named
    rfl

/-- All entries of a module are for references to it. -/
theorem exists_ref {models : String} {e : ImportEntry}
    (only : ∀ ref ∈ g.refs, specifierOf models ref = g.specifier) (member : e ∈ g.entries) :
    ∃ ref ∈ g.refs, ref.entry models = e := by
  rcases List.mem_append.mp member with default | named
  · obtain ⟨ref, found, rfl⟩ := Option.map_eq_some_iff.mp (Option.mem_toList.mp default)
    have listed : ref ∈ g.refs := List.mem_of_find?_eq_some found
    refine ⟨ref, listed, ?_⟩
    rw [ImportRef.entry, only ref listed, List.find?_some found]
  · obtain ⟨name, inBraces, rfl⟩ := List.mem_map.mp named
    obtain ⟨ref, listed, other, rfl⟩ := mem_named.mp inBraces
    exact ⟨ref, listed, by rw [ImportRef.entry, only ref listed, other]⟩

/-- All references to a module have an entry for their symbol, if not for their name. -/
theorem symbol_mem_entries {models : String} {ref : ImportRef}
    (only : specifierOf models ref = g.specifier) (listed : ref ∈ g.refs) :
    (ref.entry models).symbol ∈ g.entries.map ImportEntry.symbol := by
  rw [ImportRef.entry, only]
  cases kind : ref.isDefault with
  | false =>
      refine List.mem_map.mpr ⟨⟨g.specifier, ref.name, false⟩, List.mem_append_right _ ?_, rfl⟩
      exact List.mem_map.mpr ⟨ref.name, mem_named.mpr ⟨ref, listed, kind, rfl⟩, rfl⟩
  | true =>
      -- The module may have another reference to its default, which comes first.
      obtain ⟨first, found⟩ : ∃ first, g.default? = some first :=
        Option.isSome_iff_exists.mp (List.find?_isSome.mpr ⟨ref, listed, kind⟩)
      refine List.mem_map.mpr
        ⟨⟨g.specifier, first.name, true⟩, List.mem_append_left _ ?_, rfl⟩
      rw [found]
      exact List.mem_singleton_self _

end Group

end ImportGroup

/-! ## Blocks -/

open ImportGroup (specifierOf refsOf modulesOf ofModule)

/-- The import statements for references. -/
def importStatements (profile : Profile) (dependencies : List Dependency) (models : String)
    (refs : List ImportRef) : List ImportStatement :=
  (ImportGroup.ofRefs models refs).flatMap (ImportGroup.statements profile dependencies)

/-- All that the import statements for references bind. -/
def importEntries (profile : Profile) (dependencies : List Dependency) (models : String)
    (refs : List ImportRef) : List ImportEntry :=
  (importStatements profile dependencies models refs).flatMap ImportStatement.entries

section Block

variable {models : String} {refs : List ImportRef}

theorem importLines_eq (profile : Profile) (dependencies : List Dependency) (models : String)
    (refs : List ImportRef) :
    importLines profile dependencies models refs =
      (importStatements profile dependencies models refs).map ImportStatement.render := by
  unfold importLines importStatements
  rw [List.map_flatMap]
  exact congrArg (fun lines => List.flatMap lines _)
    (funext (ImportGroup.lines_eq profile dependencies))

theorem mem_ofModule {specifier : String} {ref : ImportRef} :
    ref ∈ (ofModule models refs specifier).refs ↔
      ref ∈ refs ∧ specifierOf models ref = specifier := by
  rw [ofModule, mem_distinctRefs, refsOf, List.mem_filter, decide_eq_true_iff]

variable {profile : Profile} {dependencies : List Dependency}

/-- What is bound, module by module. -/
theorem importEntries_eq : importEntries profile dependencies models refs =
    (modulesOf models refs).flatMap fun specifier =>
      (ofModule models refs specifier).entries := by
  unfold importEntries importStatements
  rw [ImportGroup.ofRefs_eq, List.flatMap_assoc, List.flatMap_map]
  exact congrArg (fun entries => List.flatMap entries _)
    (funext fun specifier => ImportGroup.statements_entries)

/-- All that is bound is referred to, under that name. -/
theorem exists_ref_of_mem {e : ImportEntry}
    (member : e ∈ importEntries profile dependencies models refs) :
    ∃ ref ∈ refs, ref.entry models = e := by
  rw [importEntries_eq] at member
  obtain ⟨specifier, -, inside⟩ := List.mem_flatMap.mp member
  obtain ⟨ref, listed, same⟩ :=
    ImportGroup.exists_ref (fun ref among => (mem_ofModule.mp among).2) inside
  exact ⟨ref, (mem_ofModule.mp listed).1, same⟩

/-- **No symbol is imported twice.** -/
theorem nodup_symbols (profile : Profile) (dependencies : List Dependency) (models : String)
    (refs : List ImportRef) :
    ((importEntries profile dependencies models refs).map ImportEntry.symbol).Nodup := by
  rw [importEntries_eq, List.map_flatMap, List.nodup_flatMap]
  refine ⟨fun specifier _ => ImportGroup.nodup_entries _, ?_⟩
  refine (ImportGroup.nodup_modulesOf models refs).imp fun {first second} apart => ?_
  have ofModule : ∀ specifier symbol, symbol ∈
      (ofModule models refs specifier).entries.map ImportEntry.symbol →
      symbol.module = specifier := by
    intro specifier symbol member
    obtain ⟨e, inside, rfl⟩ := List.mem_map.mp member
    exact e.symbol_module.trans (ImportGroup.module_of_mem inside)
  refine List.disjoint_left.mpr fun symbol inFirst inSecond => apart ?_
  exact (ofModule _ _ inFirst).symm.trans (ofModule _ _ inSecond)

/-- The symbols that are imported are those that are referred to. -/
theorem mem_symbols {symbol : ImportSymbol} :
    symbol ∈ (importEntries profile dependencies models refs).map ImportEntry.symbol ↔
      ∃ ref ∈ refs, (ref.entry models).symbol = symbol := by
  constructor
  · intro member
    obtain ⟨e, inside, rfl⟩ := List.mem_map.mp member
    obtain ⟨ref, listed, rfl⟩ := exists_ref_of_mem inside
    exact ⟨ref, listed, rfl⟩
  · rintro ⟨ref, listed, rfl⟩
    have here : ref ∈ (ofModule models refs (specifierOf models ref)).refs :=
      mem_ofModule.mpr ⟨listed, rfl⟩
    obtain ⟨e, inside, same⟩ := List.mem_map.mp (ImportGroup.symbol_mem_entries rfl here)
    rw [importEntries_eq]
    exact List.mem_map.mpr
      ⟨e, List.mem_flatMap.mpr ⟨_, ImportGroup.mem_modulesOf listed, inside⟩, same⟩

end Block

end ClientForge
