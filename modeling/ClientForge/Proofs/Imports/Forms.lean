/-
# ClientForge.Proofs.Imports.Forms -- in which form a reference is imported

A statement binds a name as the default of a module, as the module as a whole, or as one of the
module's named exports (`ImportForm`).  Which of these a reference needs is its own affair
(`ImportRef.form`), and every name that is bound is bound as some reference needs it.

The converse has one exception.  The statements of a module have room for one default, and the
first reference to it decides what it is called; a reference to the same default under another
name is left out (`importStatements_drop`).  All other references are bound
(`importStatements_bind`).
-/
import ClientForge.Proofs.Imports.Statements

namespace ClientForge

set_option autoImplicit false

/-! ## Forms -/

/-- What a local name stands for. -/
inductive ImportForm where
  | default
  /-- The module as a whole, under the name of its default. -/
  | whole
  | named
  deriving DecidableEq

/-- A local name and what it stands for. -/
structure ImportBinding where
  name : String
  form : ImportForm
  deriving DecidableEq

namespace ImportStatement

def module : ImportStatement → String
  | default _ module | whole _ module | named _ _ module | mixed _ _ module => module

/-- The names that a statement binds, each in its form. -/
def bindings : ImportStatement → List ImportBinding
  | default name _ => [⟨name, .default⟩]
  | whole name _ => [⟨name, .whole⟩]
  | named _ names _ => names.map (⟨·, .named⟩)
  | mixed name names _ => ⟨name, .default⟩ :: names.map (⟨·, .named⟩)

/-- The statement imports nothing that can be used as a value. -/
def importsTypes : ImportStatement → Bool
  | named typesOnly _ _ => typesOnly
  | _ => false

end ImportStatement

section Forms

variable (profile : Profile) (dependencies : List Dependency) (models : String)

/-- The form of a default. -/
def defaultForm (module name : String) : ImportForm :=
  if Dependency.isSynthetic dependencies module name && !profile.syntheticDefaults then .whole
  else .default

/-- The form in which a reference is to be imported. -/
def ImportRef.form (ref : ImportRef) : ImportForm :=
  if ref.isDefault then
    defaultForm profile dependencies (ImportGroup.specifierOf models ref) ref.name
  else .named

/-- What a reference needs. -/
def ImportRef.binding (ref : ImportRef) : ImportBinding :=
  ⟨ref.name, ref.form profile dependencies models⟩

end Forms

/-- The name that the default of a module has in a list of references: that of the first one. -/
def defaultName? (models : String) (refs : List ImportRef) (module : String) : Option String :=
  (refs.find? fun ref =>
    ref.isDefault && decide (ImportGroup.specifierOf models ref = module)).map ImportRef.name

variable {profile : Profile} {dependencies : List Dependency} {models : String}
  {refs : List ImportRef}

theorem defaultForm_ne_named (module name : String) :
    defaultForm profile dependencies module name ≠ .named := by
  unfold defaultForm
  split <;> nofun

theorem defaultForm_eq_whole_iff (module name : String) :
    defaultForm profile dependencies module name = .whole ↔ profile.syntheticDefaults = false ∧
      ∃ d ∈ dependencies, d.package = module ∧
        ∃ e ∈ d.exports, e.synthetic = true ∧ e.name = name := by
  have condition : defaultForm profile dependencies module name = .whole ↔
      (Dependency.isSynthetic dependencies module name && !profile.syntheticDefaults) = true := by
    unfold defaultForm
    split <;> simp_all
  rw [condition, Bool.and_eq_true, and_comm]
  simp [Dependency.isSynthetic]

theorem ImportRef.form_eq_named_iff (ref : ImportRef) :
    ref.form profile dependencies models = .named ↔ ref.isDefault = false := by
  unfold form
  split
  · rename_i kind
    simp [kind, defaultForm_ne_named]
  · rename_i kind
    simpa using kind

/-- References of one form are defaults both, or neither is. -/
theorem ImportRef.isDefault_of_form {a b : ImportRef}
    (same : a.form profile dependencies models = b.form profile dependencies models)
    (kind : b.isDefault = true) : a.isDefault = true := by
  by_contra named
  have form : a.form profile dependencies models = .named :=
    a.form_eq_named_iff.mpr (Bool.eq_false_iff.mpr named)
  rw [form] at same
  rw [b.form_eq_named_iff.mp same.symm] at kind
  cases kind

/-- A module is imported as a whole for a default that is declared to be the module, where the
project does not allow to import it as a default. -/
theorem ImportRef.form_eq_whole_iff (ref : ImportRef) :
    ref.form profile dependencies models = .whole ↔ ref.isDefault = true ∧
      profile.syntheticDefaults = false ∧
      ∃ d ∈ dependencies, d.package = ImportGroup.specifierOf models ref ∧
        ∃ e ∈ d.exports, e.synthetic = true ∧ e.name = ref.name := by
  unfold form
  split
  · rename_i kind
    rw [defaultForm_eq_whole_iff, and_iff_right kind]
  · rename_i kind
    exact ⟨nofun, fun both => absurd both.1 kind⟩

/-! ## Modules -/

namespace ImportGroup

variable {g : ImportGroup}

/-- All that the statements of a module bind. -/
def bindings (profile : Profile) (dependencies : List Dependency) (g : ImportGroup) :
    List ImportBinding :=
  (g.default?.map fun ref =>
      ⟨ref.name, defaultForm profile dependencies g.specifier ref.name⟩).toList ++
    g.named.map (⟨·, .named⟩)

theorem namedStatements_bindings :
    g.namedStatements.flatMap ImportStatement.bindings = g.named.map (⟨·, .named⟩) := by
  unfold namedStatements
  split
  · rename_i none
    rw [List.isEmpty_iff.mp none]
    rfl
  · exact List.append_nil _

theorem statements_bindings : (g.statements profile dependencies).flatMap
    ImportStatement.bindings = g.bindings profile dependencies := by
  unfold statements bindings defaultForm
  cases g.default? with
  | none => exact namedStatements_bindings
  | some ref =>
      dsimp only
      rw [Option.map_some]
      split
      · rw [List.flatMap_cons, namedStatements_bindings]
        rfl
      · split
        · rename_i none
          rw [List.isEmpty_iff.mp none]
          rfl
        · exact List.append_nil _

/-- The statements of a module are about the module, and import types only if no other symbol of
it is used as a value. -/
theorem statement_of_mem {s : ImportStatement} (member : s ∈ g.statements profile dependencies) :
    s.module = g.specifier ∧ (s.importsTypes = true → g.typesOnly = true) := by
  have named : ∀ s ∈ g.namedStatements,
      s.module = g.specifier ∧ (s.importsTypes = true → g.typesOnly = true) := by
    intro s member
    unfold namedStatements at member
    split at member
    · cases member
    · rw [List.mem_singleton.mp member]
      exact ⟨rfl, id⟩
  unfold statements at member
  cases found : g.default? with
  | none =>
      rw [found] at member
      exact named s member
  | some ref =>
      rw [found] at member
      dsimp only at member
      split at member
      · rcases List.mem_cons.mp member with rfl | other
        · exact ⟨rfl, nofun⟩
        · exact named s other
      · split at member
        · rw [List.mem_singleton.mp member]
          exact ⟨rfl, nofun⟩
        · rw [List.mem_singleton.mp member]
          exact ⟨rfl, nofun⟩

theorem typesOnly_iff : g.typesOnly = true ↔
    ∀ ref ∈ g.refs, ref.isDefault = false → ref.isValue = false := by
  simp [typesOnly]

theorem default?_ofModule (models : String) (refs : List ImportRef) (module : String) :
    (ofModule models refs module).default?.map ImportRef.name =
      defaultName? models refs module := by
  unfold default? ofModule defaultName? refsOf
  rw [find?_distinctRefs, List.find?_filter]
  congr 2
  funext ref
  simp [Bool.and_comm]

/-- What the statements of a module bind is what the references to it need, but for defaults
under other names than the first. -/
theorem mem_bindings {models : String} {module : String} {b : ImportBinding} :
    b ∈ (ofModule models refs module).bindings profile dependencies ↔
      ∃ ref ∈ refs, specifierOf models ref = module ∧
        b = ref.binding profile dependencies models ∧
        (ref.isDefault = true → defaultName? models refs module = some ref.name) := by
  unfold bindings
  rw [List.mem_append, Option.mem_toList, List.mem_map]
  constructor
  · rintro (first | ⟨name, inBraces, rfl⟩)
    · -- a default: it is the first one of its module
      obtain ⟨ref, found, rfl⟩ := Option.map_eq_some_iff.mp first
      obtain ⟨listed, rfl⟩ := mem_ofModule.mp (List.mem_of_find?_eq_some found)
      have kind : ref.isDefault = true := List.find?_some found
      refine ⟨ref, listed, rfl, ?_, fun _ => ?_⟩
      · rw [ImportRef.binding, ImportRef.form, if_pos kind]
        rfl
      · rw [← default?_ofModule, found, Option.map_some]
    · obtain ⟨ref, among, kind, rfl⟩ := mem_named.mp inBraces
      obtain ⟨listed, here⟩ := mem_ofModule.mp among
      refine ⟨ref, listed, here, ?_, fun other => ?_⟩
      · rw [ImportRef.binding, (ref.form_eq_named_iff).mpr kind]
      · rw [kind] at other
        cases other
  · rintro ⟨ref, listed, rfl, rfl, first⟩
    rw [ImportRef.binding, ImportRef.form]
    cases kind : ref.isDefault with
    | true =>
        have name := first kind
        rw [← default?_ofModule] at name
        obtain ⟨other, found, same⟩ := Option.map_eq_some_iff.mp name
        refine Or.inl (Option.map_eq_some_iff.mpr ⟨other, found, ?_⟩)
        rw [same]
        rfl
    | false =>
        exact Or.inr ⟨ref.name, mem_named.mpr ⟨ref, mem_ofModule.mpr ⟨listed, rfl⟩, kind, rfl⟩, rfl⟩

/-- A statement of a module binds a name exactly if a reference to the module needs it so. -/
theorem exists_statement_iff {models : String} {module : String} {b : ImportBinding} :
    (∃ s ∈ (ofModule models refs module).statements profile dependencies, b ∈ s.bindings) ↔
      ∃ ref ∈ refs, specifierOf models ref = module ∧
        b = ref.binding profile dependencies models ∧
        (ref.isDefault = true → defaultName? models refs module = some ref.name) := by
  rw [← mem_bindings, ← statements_bindings, List.mem_flatMap]

/-- A module that is referred to has a statement. -/
theorem statements_ne_nil {models : String} {ref : ImportRef} (listed : ref ∈ refs) :
    (ofModule models refs (specifierOf models ref)).statements profile dependencies ≠ [] := by
  intro none
  have entry : (ref.entry models).symbol ∈
      (ofModule models refs (specifierOf models ref)).entries.map ImportEntry.symbol :=
    symbol_mem_entries rfl (mem_ofModule.mpr ⟨listed, rfl⟩)
  rw [← statements_entries, none] at entry
  cases entry

end ImportGroup

/-! ## Blocks -/

open ImportGroup (specifierOf modulesOf ofModule)

theorem importStatements_eq : importStatements profile dependencies models refs =
    (modulesOf models refs).flatMap fun module =>
      (ofModule models refs module).statements profile dependencies := by
  rw [importStatements, ImportGroup.ofRefs_eq, List.flatMap_map]

/-- Each statement of a block is one of its own module. -/
theorem mem_importStatements {s : ImportStatement}
    (member : s ∈ importStatements profile dependencies models refs) :
    s ∈ (ofModule models refs s.module).statements profile dependencies := by
  rw [importStatements_eq] at member
  obtain ⟨module, -, inside⟩ := List.mem_flatMap.mp member
  rwa [(ImportGroup.statement_of_mem inside).1]

/-- The statements of a block import references. -/
structure ImportsAll (profile : Profile) (dependencies : List Dependency) (models : String)
    (refs : List ImportRef) (statements : List ImportStatement) : Prop where
  /-- A reference has its name from its module, in the form that it needs; of the defaults of a
  module under different names this is so for the first. -/
  bound : ∀ ref ∈ refs,
    (∃ s ∈ statements, s.module = specifierOf models ref ∧
      ref.binding profile dependencies models ∈ s.bindings) ↔
      (ref.isDefault = true →
        defaultName? models refs (specifierOf models ref) = some ref.name)
  /-- Nothing else is imported. -/
  only : ∀ s ∈ statements, ∀ b ∈ s.bindings, ∃ ref ∈ refs,
    specifierOf models ref = s.module ∧ b = ref.binding profile dependencies models
  values : ∀ s ∈ statements, s.importsTypes = true → ∀ ref ∈ refs,
    specifierOf models ref = s.module → ref.isDefault = false → ref.isValue = false
  /-- The modules come in the order in which they are first referred to, and the statements of a
  module stand together. -/
  order : ∃ statementsOf : String → List ImportStatement,
    statements = ((refs.map (specifierOf models)).eraseDups).flatMap statementsOf ∧
      ∀ module ∈ refs.map (specifierOf models), statementsOf module ≠ [] ∧
        ∀ s ∈ statementsOf module, s.module = module

/-- **Import statements bind what is referred to**, and nothing else: every reference in its own
form, except that a module has one default, under the first name that it is asked for by. -/
theorem importStatements_bind (profile : Profile) (dependencies : List Dependency)
    (models : String) (refs : List ImportRef) :
    importLines profile dependencies models refs =
        (importStatements profile dependencies models refs).map ImportStatement.render ∧
      (∀ ref : ImportRef, ref.form profile dependencies models = .named ↔
        ref.isDefault = false) ∧
      (∀ ref : ImportRef, ref.form profile dependencies models = .whole ↔ ref.isDefault = true ∧
        profile.syntheticDefaults = false ∧
        ∃ d ∈ dependencies, d.package = specifierOf models ref ∧
          ∃ e ∈ d.exports, e.synthetic = true ∧ e.name = ref.name) ∧
      ImportsAll profile dependencies models refs
        (importStatements profile dependencies models refs) := by
  refine ⟨importLines_eq .., ImportRef.form_eq_named_iff, ImportRef.form_eq_whole_iff, ?_⟩
  constructor
  case bound =>
    intro ref listed
    constructor
    · rintro ⟨s, member, here, binds⟩ kind
      have inside := mem_importStatements member
      rw [here] at inside
      obtain ⟨other, -, -, same, first⟩ := ImportGroup.exists_statement_iff.mp ⟨s, inside, binds⟩
      obtain ⟨name, form⟩ := ImportBinding.mk.inj same
      rw [first (ImportRef.isDefault_of_form form.symm kind), name]
    · intro first
      obtain ⟨s, inside, binds⟩ :=
        ImportGroup.exists_statement_iff.mpr ⟨ref, listed, rfl, rfl, first⟩
      have member : s ∈ importStatements profile dependencies models refs := by
        rw [importStatements_eq]
        exact List.mem_flatMap.mpr ⟨_, ImportGroup.mem_modulesOf listed, inside⟩
      exact ⟨s, member, (ImportGroup.statement_of_mem inside).1, binds⟩
  case only =>
    intro s member b binds
    obtain ⟨ref, listed, here, same, -⟩ :=
      ImportGroup.exists_statement_iff.mp ⟨s, mem_importStatements member, binds⟩
    exact ⟨ref, listed, here, same⟩
  case values =>
    intro s member types ref listed here
    have only : (ofModule models refs s.module).typesOnly = true :=
      (ImportGroup.statement_of_mem (mem_importStatements member)).2 types
    exact ImportGroup.typesOnly_iff.mp only ref (mem_ofModule.mpr ⟨listed, here⟩)
  case order =>
    refine ⟨_, importStatements_eq, fun module member =>
      ⟨?_, fun s inside => (ImportGroup.statement_of_mem inside).1⟩⟩
    obtain ⟨ref, listed, rfl⟩ := List.mem_map.mp member
    exact ImportGroup.statements_ne_nil listed

/-- Two references to the default of one module. -/
def defaultRefs : List ImportRef :=
  [{ name := "customFetch", specifier := some "./fetch", isDefault := true, isValue := true },
    { name := "otherFetch", specifier := some "./fetch", isDefault := true, isValue := true }]

/-- **A second name for the default of a module is not imported.** -/
theorem importStatements_drop :
    (importLines ⟨true, true⟩ [] modelsSpecifier defaultRefs =
        ["import customFetch from './fetch';"]) ∧
      ∃ ref ∈ defaultRefs, ∀ s ∈ importStatements ⟨true, true⟩ [] modelsSpecifier defaultRefs,
        ∀ b ∈ s.bindings, b.name ≠ ref.name := by
  decide +kernel

end ClientForge
