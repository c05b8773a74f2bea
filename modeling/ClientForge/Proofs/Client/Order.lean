/-
# ClientForge.Proofs.Client.Order -- files do not depend on the order of sets

The references that a type, an answer or a declaration of a contract carries are a set.  It
is a list here, as everything is that comes in some order, but no order of it means anything:
`Contract.Reordered` relates the contracts that differ in such orders and in nothing else.

The code of an operation does not look at these lists, and its imports change by what may be
exchanged (`Reordered.imports`): all references of a contract are models, also where the
module of a mutator is the models module.  So the two files have the same sections, although
their imports may be listed in another order (`render_reordered`).
-/
import ClientForge.Proofs.Client.Transport
import ClientForge.Proofs.Imports.Order

namespace ClientForge

set_option autoImplicit false

open Attempt (Related)

/-! ## Contracts with other orders -/

/-- The references of the types are in another order, and that is all. -/
structure ResolvedType.Reordered (first second : ResolvedType) : Prop where
  text : first.text = second.text
  imports : first.imports.Perm second.imports

structure Parameter.Reordered (first second : Parameter) : Prop where
  name : first.name = second.name
  type : first.type.Reordered second.type
  optional : first.optional = second.optional
  description : first.description = second.description

structure Declaration.Reordered (first second : Declaration) : Prop where
  name : first.name = second.name
  definition : first.definition = second.definition
  imports : first.imports.Perm second.imports

namespace Contract

/-- A contract with the references of its parameters, of its body, of its answer and of its
declarations in another order. -/
inductive Reordered (c : Contract) : Contract → Prop
  | mk {parameters : ParameterGroups} {body answer : List ImportRef}
      {declarations : List Declaration} :
      (∀ location, List.Forall₂ Parameter.Reordered (c.parameters.inLocation location)
        (parameters.inLocation location)) →
      c.body.type.imports.Perm body → c.answer.imports.Perm answer →
      List.Forall₂ Declaration.Reordered c.declarations declarations →
      Reordered c { c with
        parameters, declarations
        body := { c.body with type := { c.body.type with imports := body } }
        answer := { c.answer with imports := answer } }

/-- All references in the types of a contract are models. -/
structure OfModels (c : Contract) : Prop where
  path : ∀ p ∈ c.parameters.path, ∀ ref ∈ p.type.imports, ∃ name, ref = .model name
  body : ∀ ref ∈ c.body.type.imports, ∃ name, ref = .model name
  answer : ∀ ref ∈ c.answer.imports, ∃ name, ref = .model name

theorem Sourced.ofModels {schemas : List Value} {c : Contract} (sourced : c.Sourced schemas) :
    c.OfModels :=
  ⟨fun p among ref member => (sourced.path p among ref member).exists_model,
    fun ref member => (sourced.body ref member).exists_model,
    fun ref member => (sourced.answer ref member).exists_model⟩

section Reordered

variable {c d : Contract} {models : String}

/-- A contract refers to models, which may be exchanged. -/
theorem Reordered.imports (reordered : c.Reordered d) (ofModels : c.OfModels) :
    Rearranged models c.imports d.imports := by
  cases reordered with
  | @mk parameters body answer declarations inParameters inBody inAnswer inDeclarations =>
      have sorted : ∀ {refs refs' : List ImportRef}, refs.Perm refs' →
          (∀ ref ∈ refs, ∃ name, ref = .model name) →
          Interchangeable models (sortedByName refs) (sortedByName refs') := by
        intro refs refs' perm model
        refine .of_models ?_ fun ref member => model ref ((mem_sortedByName _ _).mp member)
        exact (List.mergeSort_perm _ _).trans (perm.trans (List.mergeSort_perm _ _).symm)
      refine Rearranged.distinct (Interchangeable.rearranged ?_)
      refine .append (.append (.append ?_ ?_) ?_) ?_
      · have each := inParameters .path
        refine .flatMap (List.forall₂_iff_zip.mpr ⟨each.length_eq, fun {p q} member => ?_⟩)
        exact .of_models (List.forall₂_zip each member).type.imports
          (ofModels.path p (mem_of_mem_zip member))
      · have declared : c.declarations.map (fun d => ImportRef.model d.name) =
            declarations.map fun d => ImportRef.model d.name := by
          refine List.forall₂_eq_eq_eq ▸ List.forall₂_map_left_iff.mpr
            (List.forall₂_map_right_iff.mpr (inDeclarations.imp fun d d' same => ?_))
          rw [same.name]
        rw [declared]
        exact .refl _
      · show Interchangeable models c.bodyImports
          (if c.body.defined && c.bodyTypeName == some c.body.type.text then sortedByName body
          else [])
        unfold bodyImports
        split
        · exact sorted inBody ofModels.body
        · exact .refl []
      · exact sorted inAnswer ofModels.answer

/-- The code of a request function does not look at them. -/
theorem Reordered.request_eq (reordered : c.Reordered d) (profile : Profile) :
    c.request profile = d.request profile := by
  cases reordered
  rfl

theorem Reordered.hook_eq (reordered : c.Reordered d) (kind : VerbKind) :
    Flavor.Swr.hookText c kind = Flavor.Swr.hookText d kind := by
  cases reordered
  rfl

/-- What its code refers to on purpose. -/
theorem Reordered.allImports (reordered : c.Reordered d) (ofModels : c.OfModels)
    (withErrorType : Bool) :
    Rearranged models (c.imports ++ c.mutatorImports withErrorType)
      (d.imports ++ d.mutatorImports withErrorType) := by
  have mutator : c.mutatorImports withErrorType = d.mutatorImports withErrorType := by
    cases reordered
    rfl
  rw [mutator]
  exact (reordered.imports ofModels).append (.refl _)

end Reordered

end Contract

/-! ## Files -/

/-- Code that differs in the order of its imports. -/
structure ClientCode.Reordered (first second : ClientCode) : Prop where
  implementation : first.implementation = second.implementation
  imports : Rearranged modelsSpecifier first.imports second.imports

/-- Files that differ in the order of their imports. -/
structure ClientFile.Reordered (first second : ClientFile) : Prop where
  flavor : first.flavor = second.flavor
  header : first.header = second.header
  dependencies : first.dependencies = second.dependencies
  implementations : first.implementations = second.implementations
  failures : first.failures = second.failures
  imports : Rearranged modelsSpecifier first.imports.refs second.imports.refs

theorem ClientFile.Reordered.render_eq {first second : ClientFile}
    (reordered : first.Reordered second) (profile : Profile) :
    first.render profile = second.render profile := by
  unfold ClientFile.render ClientFile.sections
  rw [reordered.imports.importLines_eq, reordered.dependencies, reordered.header,
    reordered.implementations]

namespace Flavor

/-- What a flavor writes for a contract does not depend on the order of sets in it. -/
def IgnoresOrder (f : Flavor) : Prop :=
  ∀ c d : Contract, c.Reordered d → c.OfModels →
    Related ClientCode.Reordered (f.client c).result (f.client d).result

theorem axios_ignoresOrder (profile : Profile) : (axios profile).IgnoresOrder := by
  intro c d reordered ofModels
  show Related _ (Axios.client profile c) (Axios.client profile d)
  unfold Axios.client
  rw [reordered.request_eq]
  cases d.request profile with
  | error e => exact .error e
  | ok r => exact .ok ⟨rfl, reordered.allImports ofModels false⟩

theorem swr_ignoresOrder (profile : Profile) : (swr profile).IgnoresOrder := by
  intro c d reordered ofModels
  show Related _ (Swr.client profile c).result (Swr.client profile d).result
  have verb : c.verb = d.verb := by
    cases reordered
    rfl
  unfold Swr.client
  rw [reordered.request_eq, verb]
  cases d.request profile with
  | error e => exact .error e
  | ok r =>
      cases VerbKind.ofVerb? d.verb with
      | none => exact .ok ⟨rfl, reordered.allImports ofModels false⟩
      | some kind =>
          refine .ok ⟨?_, reordered.allImports ofModels true⟩
          exact congrArg (fun text => r.render ++ "\n\n" ++ text) (reordered.hook_eq kind)

/-- The code of an operation that differs in the order of its imports. -/
def SameCode (first second : OperationCode) : Prop :=
  first.implementation = second.implementation ∧
    Rearranged modelsSpecifier first.imports second.imports

section Files

variable {f : Flavor} {flags : HeaderFlags} {allMutated : Bool}

theorem codeOf_related (ignores : f.IgnoresOrder) {c d : Contract} (reordered : c.Reordered d)
    (ofModels : c.OfModels) :
    Related SameCode (f.codeOf flags allMutated c).result
      (f.codeOf flags allMutated d).result := by
  refine Traced.bind_related (ignores c d reordered ofModels) fun code code' same => ?_
  refine .ok ⟨same.implementation, ?_⟩
  dsimp only
  rw [same.implementation]
  exact (same.imports.append (.refl _)).distinct

theorem addTo_related (ignores : f.IgnoresOrder) {c d : Contract} (reordered : c.Reordered d)
    (ofModels : c.OfModels) {file file' : ClientFile} (before : file.Reordered file') :
    Related ClientFile.Reordered (f.addTo flags allMutated file c).result
      (f.addTo flags allMutated file' d).result := by
  have coded : Related SameCode (f.codeOf flags allMutated c).result
      (f.codeOf flags allMutated d).result := codeOf_related ignores reordered ofModels
  have name : c.name = d.name ∧ c.location = d.location := by
    cases reordered
    exact ⟨rfl, rfl⟩
  unfold addTo
  refine Traced.bind_related (R := Related SameCode) (.ok coded) fun code code' same => ?_
  cases same with
  | ok same =>
      refine .ok { before with implementations := ?_, imports := ?_ }
      · show _ ++ [_] = _ ++ [_]
        rw [before.implementations, same.1]
      · exact before.imports.insertAll same.2
  | error e =>
      cases e with
      | reported report =>
          rw [name.1, name.2]
          refine Traced.bind_related (R := Eq) (.ok rfl) fun _ _ _ => ?_
          refine .ok { before with failures := ?_ }
          show _ ++ [_] = _ ++ [_]
          rw [before.failures]
      | _ => exact .error _

theorem fileOf_related (ignores : f.IgnoresOrder) {contracts contracts' : List Contract}
    (ofModels : ∀ c ∈ contracts, c.OfModels)
    (reordered : List.Forall₂ Contract.Reordered contracts contracts') :
    Related ClientFile.Reordered (f.fileOf allMutated contracts).result
      (f.fileOf allMutated contracts').result := by
  have flags : f.flags contracts = f.flags contracts' := by
    have passes : contracts.any Contract.passesSecondArg =
        contracts'.any Contract.passesSecondArg := by
      induction reordered with
      | nil => rfl
      | cons first _ ih =>
          rw [List.any_cons, List.any_cons, ih fun c member => ofModels c (.tail _ member)]
          cases first
          rfl
    rw [Flavor.flags, passes, Flavor.flags]
  have each : List.Forall₂ (fun c d => c.Reordered d ∧ c.OfModels) contracts contracts' :=
    List.forall₂_iff_zip.mpr ⟨reordered.length_eq, fun member =>
      ⟨List.forall₂_zip reordered member, ofModels _ (mem_of_mem_zip member)⟩⟩
  unfold fileOf
  rw [flags]
  refine Traced.bind_related (R := ClientFile.Reordered) ?_ fun file file' same => ?_
  · refine Traced.foldlM_related each (fun c d both file file' before => ?_) ?_
    · exact addTo_related ignores both.1 both.2 before
    · exact ⟨rfl, rfl, rfl, rfl, rfl, .refl _⟩
  · exact .ok same

end Files

end Flavor

/-- **Files do not depend on the order of sets.**  For contracts that were built, in whatever
order the references in them are listed, the flavors that come with the generator write the
same text. -/
theorem Flavor.render_reordered {profile : Profile} {f : Flavor}
    (builtIn : f = .axios profile ∨ f = .swr profile) (allMutated : Bool)
    {contracts contracts' : List Contract}
    (built : ∀ c ∈ contracts, ∃ (op : Operation) (o : Override), (op.contract o).result = .ok c)
    (reordered : List.Forall₂ Contract.Reordered contracts contracts') :
    (f.fileOf allMutated contracts).result.map (ClientFile.render profile) =
      (f.fileOf allMutated contracts').result.map (ClientFile.render profile) := by
  have ignores : f.IgnoresOrder := by
    rcases builtIn with rfl | rfl
    · exact axios_ignoresOrder profile
    · exact swr_ignoresOrder profile
  refine (fileOf_related ignores (fun c member => ?_) reordered).map_eq fun file file' same => ?_
  · obtain ⟨op, o, run⟩ := built c member
    exact (Operation.contract_sourced run).ofModels
  · exact same.render_eq profile

namespace Contract

/-- The contract with the references of its path parameters the other way around. -/
def turned (c : Contract) : Contract :=
  { c with parameters := { c.parameters with path := c.parameters.path.map fun p =>
    { p with type := { p.type with imports := p.type.imports.reverse } } } }

theorem reordered_turned (c : Contract) : c.Reordered c.turned := by
  have same : ∀ ps : List Parameter, List.Forall₂ Parameter.Reordered ps ps :=
    fun ps => List.forall₂_same.mpr fun p _ => ⟨rfl, ⟨rfl, .refl _⟩, rfl, rfl⟩
  refine .mk (fun location => ?_) (.refl _) (.refl _) ?_
  · cases location with
    | path =>
        refine List.forall₂_map_right_iff.mpr (List.forall₂_same.mpr fun p _ => ?_)
        exact ⟨rfl, ⟨rfl, (List.reverse_perm _).symm⟩, rfl, rfl⟩
    | query => exact same _
    | header => exact same _
    | cookie => exact same _
  · exact List.forall₂_same.mpr fun d _ => ⟨rfl, rfl, .refl _⟩

/-- An operation with a path parameter that may be of two models. -/
def findPet : Operation where
  verb := .get
  path := .str "/pets/\x7bkey\x7d"
  id := some (.str "findPet")
  parameters := [⟨.str "key", .str "path", true,
    some (.object [("anyOf", .list [.object [(schemaNameKey, .str "Chip")],
      .object [(schemaNameKey, .str "Tag")]])]), [], none, none⟩]
  requestBody := none
  responses := []
  extensions := []

/-- The models are listed in two orders, and behind a mutator from their own module. -/
theorem render_reordered_findPet :
    ∃ c file file', (findPet.contract { mutator := some { sender with path := "./model" } }).result
        = .ok c ∧ c.imports = [.model "Chip", .model "Tag"] ∧
      c.turned.imports = [.model "Tag", .model "Chip"] ∧
      ((Flavor.axios ⟨true, true⟩).fileOf true [c]).result = .ok file ∧
      ((Flavor.axios ⟨true, true⟩).fileOf true [c.turned]).result = .ok file' ∧
      file.imports ≠ file'.imports ∧ file.render ⟨true, true⟩ = file'.render ⟨true, true⟩ := by
  have runs : ∃ c file file',
      (findPet.contract { mutator := some { sender with path := "./model" } }).result = .ok c ∧
      c.imports = [.model "Chip", .model "Tag"] ∧
      c.turned.imports = [.model "Tag", .model "Chip"] ∧
      ((Flavor.axios ⟨true, true⟩).fileOf true [c]).result = .ok file ∧
      ((Flavor.axios ⟨true, true⟩).fileOf true [c.turned]).result = .ok file' ∧
      file.imports ≠ file'.imports :=
    ⟨_, _, _, rfl, by decide +kernel, by decide +kernel, rfl, rfl, by decide +kernel⟩
  obtain ⟨c, file, file', built, listed, turned, run, run', other⟩ := runs
  have same := Flavor.render_reordered (f := .axios ⟨true, true⟩) (Or.inl rfl) true
    (fun d member => ⟨_, _, List.mem_singleton.mp member ▸ built⟩)
    (.cons c.reordered_turned .nil)
  rw [run, run'] at same
  exact ⟨c, file, file', built, listed, turned, run, run', other, Except.ok.inj same⟩

end Contract

end ClientForge
