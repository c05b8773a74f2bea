/-
# ClientForge.Proofs.Client.Failures -- when the code of a contract cannot be written

A contract has all that its code needs, so the flavors that come with the generator report
nothing about it (`builtIn_reportsNothing`): writing a request function fails only for a value
of the wrong shape, which a form or a content type may meet, and a verb without a hook is no
failure.  The file of such a flavor has the code of every contract, in their order, and
nothing of it depends on the other contracts (`fileOf_eq_ok`).
-/
import ClientForge.Client.File
import ClientForge.Client.Registry
import ClientForge.Proofs.Contract.Imports
import ClientForge.Proofs.Contract.Slots
import ClientForge.Proofs.Operation.Schemas
import ClientForge.Proofs.Types.Failures

namespace ClientForge

set_option autoImplicit false

open Attempt (FailsOnly)

section Shapes

variable {reasons : Failure → Prop}

namespace FormBody

theorem conversionFor_failsOnly (shape : reasons .illShaped) (schema : Entries) :
    FailsOnly reasons (conversionFor schema) := by
  unfold conversionFor
  repeat' split
  all_goals first
    | exact .ok _
    | exact .error shape

theorem fieldOf_failsOnly (shape : reasons .illShaped) (required : List String) (key : Scalar)
    (schema : Value) : FailsOnly reasons (fieldOf required key schema) := by
  refine .bind (Contract.textOf_failsOnly shape _) fun name _ => ?_
  refine .bind (Api.asMap_failsOnly shape _) fun entries _ => ?_
  dsimp only
  split
  · split
    · exact .bind (conversionFor_failsOnly shape _) fun conversion _ => .ok _
    · exact .ok _
  · exact .bind (conversionFor_failsOnly shape _) fun conversion _ => .ok _

theorem ofSchema_failsOnly (shape : reasons .illShaped) (kind : FormKind) (source : String)
    (schema : Option Value) : FailsOnly reasons (ofSchema kind source schema) := by
  have fields : ∀ entries : Entries, FailsOnly reasons (do
      let required ← Schema.requiredNames (Entries.get? "required" entries)
      let properties ← Api.asMap ((Entries.get? "properties" entries).getD .null)
      let fields ← properties.mapM fun entry => fieldOf required entry.1 entry.2
      return (⟨kind, source, some fields⟩ : FormBody)) := by
    intro entries
    refine .bind (Schema.requiredNames_failsOnly shape _) fun required _ => ?_
    refine .bind (Api.asMap_failsOnly shape _) fun properties _ => ?_
    exact .bind (.mapM fun entry _ => fieldOf_failsOnly shape _ _ _) fun fields _ => .ok _
  unfold ofSchema
  dsimp only
  split
  · refine .bind (Api.asMap_failsOnly shape _) fun entries _ => ?_
    split
    · exact .ok _
    · exact fields entries
  · exact .ok _

end FormBody

namespace Contract

theorem contentType?_failsOnly (shape : reasons .illShaped) (c : Contract) :
    FailsOnly reasons c.contentType? := by
  unfold contentType?
  repeat' split
  all_goals first
    | exact .ok _
    | exact .error shape

/-- A request function cannot be written only where a value has the wrong shape. -/
theorem request_failsOnly (shape : reasons .illShaped) (c : Contract) (profile : Profile) :
    FailsOnly reasons (c.request profile) := by
  have form : FailsOnly reasons c.form? := by
    unfold form?
    split
    · exact (FormBody.ofSchema_failsOnly shape _ _ _).map
    · exact .ok none
  refine .bind form fun form _ => ?_
  split
  · refine .bind ?_ fun call _ => .ok _
    exact .bind (contentType?_failsOnly shape c) fun contentType _ => .ok _
  · exact .ok _

end Contract

end Shapes

namespace Flavor

/-- The code of a contract is never missing for a reason that is reported. -/
def ReportsNothing (f : Flavor) : Prop :=
  ∀ c, (f.client c).result.FailsOnly (· = .illShaped)

theorem axios_reportsNothing (profile : Profile) : (axios profile).ReportsNothing := by
  intro c
  refine .bind (Contract.request_failsOnly ?_ c profile) fun r _ => .ok _
  rfl

theorem swr_reportsNothing (profile : Profile) : (swr profile).ReportsNothing := by
  intro c
  refine Traced.bind_failsOnly (Contract.request_failsOnly ?_ c profile) fun r _ => ?_
  · rfl
  · split
    · exact .ok _
    · exact .ok _

/-! ## Files -/

/-- The flavor writes this implementation for the contract. -/
def Implements (f : Flavor) (c : Contract) (text : String) : Prop :=
  ∃ code, (f.client c).result = .ok code ∧ code.implementation = text

section Files

variable {f : Flavor} {flags : HeaderFlags} {allMutated : Bool} {contracts : List Contract}
  {file file' : ClientFile}

/-- A flavor that reports nothing adds the code of every contract. -/
theorem addTo_adds {c : Contract} (quiet : f.ReportsNothing)
    (run : (f.addTo flags allMutated file c).result = .ok file') :
    ∃ code, (f.codeOf flags allMutated c).result = .ok code ∧ file' = file.add code := by
  unfold addTo at run
  obtain ⟨result, written, run⟩ := Traced.bind_eq_ok run
  have coded : (f.codeOf flags allMutated c).result = result := Except.ok.inj written
  cases result with
  | ok operation =>
      cases run
      exact ⟨operation, coded, rfl⟩
  | error failure =>
      have failed : failure = .illShaped :=
        Traced.bind_failsOnly (quiet c) (fun _ _ => .ok _) failure coded
      subst failed
      cases run

/-- A file of a flavor that reports nothing fails only for a value of the wrong shape. -/
theorem fileOf_failsOnly (quiet : f.ReportsNothing) :
    (f.fileOf allMutated contracts).result.FailsOnly (· = .illShaped) := by
  refine Traced.bind_failsOnly (Traced.foldlM_failsOnly fun c _ file => ?_) fun file _ => .ok file
  refine Traced.bind_failsOnly (.ok _) fun coded written => ?_
  have result : (f.codeOf (f.flags contracts) allMutated c).result = coded := Except.ok.inj written
  cases coded with
  | ok operation => exact .ok _
  | error failure =>
      have failed : failure = .illShaped :=
        Traced.bind_failsOnly (quiet c) (fun _ _ => .ok _) failure result
      subst failed
      exact .error rfl

theorem foldlM_addTo_adds (quiet : f.ReportsNothing)
    (run : (contracts.foldlM (f.addTo flags allMutated) file).result = .ok file') :
    ∃ codes, List.Forall₂ (fun c code => (f.codeOf flags allMutated c).result = .ok code)
        contracts codes ∧ file' = codes.foldl ClientFile.add file := by
  induction contracts generalizing file with
  | nil =>
      cases run
      exact ⟨[], .nil, rfl⟩
  | cons c rest ih =>
      rw [List.foldlM_cons] at run
      obtain ⟨middle, first, later⟩ := Traced.bind_eq_ok run
      obtain ⟨code, coded, rfl⟩ := addTo_adds quiet first
      obtain ⟨codes, each, same⟩ := ih later
      exact ⟨code :: codes, .cons coded each, same⟩

/-- What the code of operations adds to a file. -/
theorem foldl_add (codes : List OperationCode) (start : ClientFile) :
    (codes.foldl ClientFile.add start).header = start.header ∧
      (codes.foldl ClientFile.add start).dependencies = start.dependencies ∧
      (codes.foldl ClientFile.add start).implementations =
        start.implementations ++ codes.map OperationCode.implementation ∧
      (codes.foldl ClientFile.add start).failures = start.failures ∧
      ∀ ref, ref ∈ (codes.foldl ClientFile.add start).imports.refs ↔
        ref ∈ start.imports.refs ∨ ∃ code ∈ codes, ref ∈ code.imports := by
  induction codes generalizing start with
  | nil => simp
  | cons code rest ih =>
      obtain ⟨header, dependencies, implementations, failures, imports⟩ := ih (start.add code)
      rw [List.foldl_cons]
      refine ⟨header, dependencies, ?_, failures, fun ref => ?_⟩
      · rw [implementations]
        simp [ClientFile.add]
      · rw [imports, ClientFile.add, mem_insertAll, or_assoc]
        simp

/-- The file of a flavor that reports nothing is made of the code of all contracts. -/
theorem fileOf_adds (quiet : f.ReportsNothing)
    (run : (f.fileOf allMutated contracts).result = .ok file) :
    ∃ codes, List.Forall₂ (fun c code =>
        (f.codeOf (f.flags contracts) allMutated c).result = .ok code) contracts codes ∧
      file.header = f.header (f.flags contracts) ∧
      file.dependencies = f.dependencies allMutated ∧
      file.implementations = codes.map OperationCode.implementation ∧ file.failures = [] ∧
      ∀ ref, ref ∈ file.imports.refs ↔ ∃ code ∈ codes, ref ∈ code.imports := by
  unfold fileOf at run
  obtain ⟨written, folded, run⟩ := Traced.bind_eq_ok run
  obtain ⟨_, -, run⟩ := Traced.bind_eq_ok run
  cases run
  obtain ⟨codes, each, rfl⟩ := foldlM_addTo_adds quiet folded
  obtain ⟨header, dependencies, implementations, failures, imports⟩ := foldl_add codes
    { flavor := f.name, header := f.header (f.flags contracts),
      dependencies := f.dependencies allMutated }
  refine ⟨codes, each, header, dependencies, implementations, failures, fun ref => ?_⟩
  rw [imports]
  simp

/-- The file of a flavor that reports nothing has the code of every contract, in order. -/
theorem fileOf_eq_ok (quiet : f.ReportsNothing)
    (run : (f.fileOf allMutated contracts).result = .ok file) :
    file.failures = [] ∧ List.Forall₂ f.Implements contracts file.implementations := by
  obtain ⟨codes, each, -, -, implementations, failures, -⟩ := fileOf_adds quiet run
  refine ⟨failures, ?_⟩
  rw [implementations, List.forall₂_map_right_iff]
  refine each.imp fun c code run => ?_
  obtain ⟨client, written, made⟩ := Traced.bind_eq_ok run
  cases made
  exact ⟨client, written, rfl⟩

end Files

end Flavor

/-- Two flavors come with the generator. -/
theorem Registry.builtIn_get {name : String} {profile : Profile} {f : Flavor}
    (found : builtIn.get name profile = .ok f) :
    name = "axios" ∧ f = .axios profile ∨ name = "swr" ∧ f = .swr profile := by
  unfold Registry.get Registry.find? Registry.builtIn at found
  split at found
  · rename_i maker listed
    cases found
    rw [List.lookup_cons, List.lookup_cons, List.lookup_nil] at listed
    split at listed
    · rename_i same
      cases listed
      exact Or.inl ⟨beq_iff_eq.mp same, rfl⟩
    · split at listed
      · rename_i same
        cases listed
        exact Or.inr ⟨beq_iff_eq.mp same, rfl⟩
      · cases listed
  · cases found

/-- They report nothing. -/
theorem Registry.builtIn_reportsNothing {name : String} {profile : Profile} {f : Flavor}
    (found : builtIn.get name profile = .ok f) :
    f.ReportsNothing ∧ f.name = name ∧ f.profile = profile := by
  rcases builtIn_get found with ⟨rfl, rfl⟩ | ⟨rfl, rfl⟩
  · exact ⟨Flavor.axios_reportsNothing profile, rfl, rfl⟩
  · exact ⟨Flavor.swr_reportsNothing profile, rfl, rfl⟩

end ClientForge
