/-
# ClientForge.Proofs.Package.Failures -- what is missing in a package, and why there is none

A package that is written has everything or a list of failures: one for each operation without a
contract, then for each flavor one for each operation that it refuses (`generate_failures`).  So the
list is empty exactly if every flavor has the code of every operation (`complete_iff`).

A package that is not written is missing for one of the reasons in `Unwritten`: there is a report,
a path that nothing can be written to, or a part of the document that one of the steps has no
meaning for.  Each step says which part that is, and `generate_unwritten` puts the steps together.
-/
import ClientForge.Proofs.Contract.Surfaces
import ClientForge.Proofs.Models.Refusals
import ClientForge.Proofs.Package.Places
import ClientForge.Proofs.Package.Writing

namespace ClientForge

set_option autoImplicit false

open Attempt (FailsOnly)
open Failure (IsReport Unreported)
open Files
open Model (IsComponent)

/-- An operation of the right types has a contract under settings that were read, or there is a
report. -/
theorem Config.contractFor_reports {data : Value} {config : Config} {op : Operation}
    (read : ofValue data = .ok config) (typed : op.WellTyped) :
    (config.contractFor op).result.FailsOnly IsReport := by
  obtain ⟨id, same⟩ : ∃ id : Option String, op.id = id.map .str := by
    cases given : op.id with
    | none => exact ⟨none, rfl⟩
    | some v =>
        obtain ⟨s, rfl⟩ := typed.id v given
        exact ⟨some s, rfl⟩
  obtain ⟨base, settings, -⟩ := exists_settingsFor read id
  have found : (config.settingsFor op.id).FailsOnly Failure.IsSetting := by
    rw [same, settings]
    exact .ok base
  refine Traced.bind_failsOnly ((overrideFor_failsOnly found op.extensions).mono ?_) fun o _ => ?_
  · rintro _ ⟨fault, rfl⟩
    exact ⟨_, rfl⟩
  · exact (Operation.contract_refusedIff typed o).failsOnly

/-! ## The code of a contract -/

namespace Flavor

variable {f : Flavor} {flags : HeaderFlags} {allMutated : Bool} {c : Contract}
  {contracts : List Contract} {file : ClientFile}

/-- A contract is added, whether it has code or a report, unless writing its code fails. -/
theorem addTo_failsOnly :
    (f.addTo flags allMutated file c).result.FailsOnly fun e =>
      e.Unreported ∧ (f.client c).result = .error e := by
  refine Traced.bind_failsOnly (.ok _) fun coded attempted => ?_
  have result : (f.codeOf flags allMutated c).result = coded := Except.ok.inj attempted
  cases coded with
  | ok operation => exact .ok _
  | error failure =>
      have failed := codeOf_eq_error result
      cases failure with
      | reported report => exact Traced.bind_failsOnly (.ok _) fun _ _ => .ok _
      | _ =>
          refine .error ⟨?_, failed⟩
          rintro _ ⟨⟩

/-- The file of a flavor fails where the code of one of its contracts does. -/
theorem fileOf_failsOnly_client :
    (f.fileOf allMutated contracts).result.FailsOnly fun e =>
      ∃ c ∈ contracts, (f.client c).result = .error e := by
  refine Traced.bind_failsOnly ?_ fun file _ => .ok file
  refine Traced.foldlM_failsOnly fun c member file => ?_
  exact addTo_failsOnly.mono fun e failed => ⟨c, member, failed.2⟩

/-- In a file that was made, every contract has its code or a report. -/
theorem fileOf_settles (run : (f.fileOf allMutated contracts).result = .ok file)
    (member : c ∈ contracts) :
    (∃ code, (f.client c).result = .ok code) ∨ ∃ report, f.report? c = some report := by
  obtain ⟨last, folded, -⟩ := Traced.bind_eq_ok run
  obtain ⟨before, after, added⟩ := Traced.foldlM_steps folded member
  cases result : (f.client c).result with
  | ok code => exact Or.inl ⟨code, rfl⟩
  | error failure =>
      obtain ⟨_, attempted, added⟩ := Traced.bind_eq_ok added
      have coded : (f.codeOf (f.flags contracts) allMutated c).result = .error failure := by
        rw [codeOf, Traced.bind_fail result]
      cases (Except.ok.inj attempted).symm.trans coded
      cases failure with
      | reported report => exact Or.inr ⟨report, by simp [report?, result]⟩
      | _ => cases added

end Flavor

namespace Package

/-! ## What is missing -/

/-- The flavor under the name has code for the operation. -/
def Generates (registry : Registry) (config : Config) (profile : Profile) (name : String)
    (op : Operation) : Prop :=
  ∃ o text, config.overrideFor op.id op.extensions = .ok o ∧
    registry.implementation name profile op o = .ok text

section Runs

variable {registry : Registry} {config : Config} {profile : Profile} {place : PackagePlace}
  {names : List String} {api : Api} {before after : FileTable} {r : PackageResult}

theorem generates_iff {name : String} {f : Flavor} {op : Operation}
    (found : registry.get name profile = .ok f) :
    Generates registry config profile name op ↔
      ∃ c code, (config.contractFor op).result = .ok c ∧ (f.client c).result = .ok code := by
  constructor
  · rintro ⟨o, text, settings, written⟩
    obtain ⟨_, again, written⟩ := Attempt.bind_eq_ok written
    cases found.symm.trans again
    obtain ⟨c, built, written⟩ := Attempt.bind_eq_ok written
    obtain ⟨code, coded, -⟩ := Attempt.bind_eq_ok written
    refine ⟨c, code, ?_, coded⟩
    unfold Config.contractFor
    rw [Traced.bind_ok settings]
    exact built
  · rintro ⟨c, code, built, coded⟩
    obtain ⟨o, settings, contract⟩ := Config.contractFor_eq_ok built
    exact ⟨o, _, settings, Registry.implementation_eq_ok found contract ⟨code, coded, rfl⟩⟩

/-- The failures of a package are those of the operations without a contract, and then those of
every flavor, each in the order of the operations. -/
theorem generate_failures
    (run : (generate registry config profile place names api).Leads before r after) :
    ∃ early late, r.failures = early ++ late ∧
      List.Forall₂ (fun op report => (config.contractFor op).result = .error (.reported report))
        (api.operations.filter fun op => !config.builds op) early ∧
      List.Forall₂ (RaisedIn registry config profile)
        (names.flatMap fun name =>
          (api.operations.filter (refuses registry config profile name)).map fun op => (name, op))
        late := by
  obtain ⟨flavors, made, cs, reports, models, between, clients, found, folder, built, declared,
    written, later, rfl⟩ := generate_iff.mp run
  obtain ⟨kept, passed⟩ := contracts_iff.mp built
  obtain ⟨files, each, rfl, -⟩ := writeClients_files later
  exact ⟨reports, _, rfl, passed, raised_by_flavors (Attempt.mapM_eq_ok found) each kept⟩

/-- In a package that was written, an operation has code unless it has no contract or the flavor
refuses it. -/
theorem generates_iff_not_refuses {name : String} {op : Operation} (listed : name ∈ names)
    (member : op ∈ api.operations)
    (run : (generate registry config profile place names api).Leads before r after) :
    Generates registry config profile name op ↔
      config.builds op = true ∧ refuses registry config profile name op = false := by
  obtain ⟨flavors, made, cs, reports, models, between, clients, found, folder, built, declared,
    written, later, rfl⟩ := generate_iff.mp run
  obtain ⟨kept, -⟩ := contracts_iff.mp built
  obtain ⟨files, each, rfl, -⟩ := writeClients_files later
  obtain ⟨f, there, get⟩ := exists_of_mem_right (Attempt.mapM_eq_ok found).flip listed
  obtain ⟨file, -, made⟩ := exists_of_mem_right each.flip there
  rw [generates_iff get]
  constructor
  · rintro ⟨c, code, contract, coded⟩
    refine ⟨congrArg Except.isOk contract, ?_⟩
    simp [refuses, get, contract, Flavor.report?, coded]
  · rintro ⟨builds, accepts⟩
    obtain ⟨c, among, contract⟩ :=
      exists_of_mem_right kept.flip (List.mem_filter.mpr ⟨member, builds⟩)
    rcases Flavor.fileOf_settles made among with ⟨code, coded⟩ | ⟨report, reports⟩
    · exact ⟨c, code, contract, coded⟩
    · simp [refuses, get, contract, reports] at accepts

/-- **Nothing is missing in a package exactly if every flavor has code for every operation.** -/
theorem complete_iff (some : names ≠ [])
    (run : (generate registry config profile place names api).Leads before r after) :
    r.complete = true ↔
      ∀ op ∈ api.operations, ∀ name ∈ names, Generates registry config profile name op := by
  obtain ⟨early, late, failures, without, refused⟩ := generate_failures run
  have empty : r.complete = true ↔
      (∀ op ∈ api.operations, config.builds op = true) ∧
        ∀ name ∈ names, ∀ op ∈ api.operations,
          refuses registry config profile name op = false := by
    have lengths : r.failures = [] ↔ early = [] ∧ late = [] := by
      rw [failures, List.append_eq_nil_iff]
    rw [PackageResult.complete, List.isEmpty_iff, lengths, ← List.length_eq_zero_iff,
      ← without.length_eq, ← List.length_eq_zero_iff, ← refused.length_eq, List.length_eq_zero_iff,
      List.length_eq_zero_iff, List.filter_eq_nil_iff, List.flatMap_eq_nil_iff]
    simp only [List.map_eq_nil_iff, List.filter_eq_nil_iff, Bool.not_eq_true', Bool.not_eq_false,
      Bool.not_eq_true]
  rw [empty]
  constructor
  · rintro ⟨build, accept⟩ op member name listed
    exact (generates_iff_not_refuses listed member run).mpr
      ⟨build op member, accept name listed op member⟩
  · intro each
    have both := fun op member name listed =>
      (generates_iff_not_refuses listed member run).mp (each op member name listed)
    obtain ⟨name, listed⟩ := List.exists_mem_of_ne_nil names some
    exact ⟨fun op member => (both op member name listed).1,
      fun name listed op member => (both op member name listed).2⟩

/-! ## Why there is no package -/

/-- The folder of a package can be made, and all of its files can be written to then. -/
def Writable (files : FileTable) (place : PackagePlace) (flavors : List Flavor) : Prop :=
  ∃ made, files.makeFolder (folder place) = .ok made ∧
    ∀ path ∈ modelsPath place :: flavors.map fun f => clientPath place f.name, made.CanWrite path

/-- Why there is no package: something is reported, a path cannot be written to, or an operation, a
component schema or the code of a contract in a flavor makes a step fail. -/
inductive Unwritten (registry : Registry) (config : Config) (profile : Profile)
    (place : PackagePlace) (names : List String) (api : Api) (files : FileTable) : Failure → Prop
  | reported (report : Report) :
      Unwritten registry config profile place names api files (.reported report)
  | output {flavors : List Flavor} {e : Failure}
      (found : names.mapM (fun name => registry.get name profile) = .ok flavors)
      (unwritable : ¬ Writable files place flavors) :
      Unwritten registry config profile place names api files e
  | operation {op : Operation} {e : Failure} (member : op ∈ api.operations)
      (failed : (config.contractFor op).result = .error e) (unreported : e.Unreported) :
      Unwritten registry config profile place names api files e
  | schema {entry : Scalar × Value} {e : Failure} (member : entry ∈ api.schemas)
      (noComponent : ¬ IsComponent entry) :
      Unwritten registry config profile place names api files e
  | client {name : String} {f : Flavor} {op : Operation} {c : Contract} {e : Failure}
      (listed : name ∈ names) (found : registry.get name profile = .ok f)
      (member : op ∈ api.operations) (built : (config.contractFor op).result = .ok c)
      (failed : (f.client c).result = .error e) :
      Unwritten registry config profile place names api files e

theorem contracts_failsOnly (config : Config) (ops : List Operation) :
    (contracts config ops).result.FailsOnly fun e =>
      e.Unreported ∧ ∃ op ∈ ops, (config.contractFor op).result = .error e := by
  induction ops with
  | nil => exact .ok _
  | cons op rest ih =>
      have later : (contracts config rest).result.FailsOnly fun e =>
          e.Unreported ∧ ∃ op' ∈ op :: rest, (config.contractFor op').result = .error e := by
        refine ih.mono ?_
        rintro e ⟨unreported, op', member, failed⟩
        exact ⟨unreported, op', List.mem_cons_of_mem _ member, failed⟩
      cases result : (config.contractFor op).result with
      | ok c =>
          rw [contracts_cons_of_ok result]
          exact later.map
      | error failure =>
          cases failure with
          | reported report =>
              rw [contracts_cons_of_reported result]
              exact later.map
          | _ =>
              have attempted := congrArg (Except.ok (ε := Failure)) result
              rw [contracts, Traced.bind_ok attempted]
              refine .error ⟨?_, op, List.mem_cons_self, result⟩
              rintro _ ⟨⟩

/-- If all of their paths can be written to, the clients fail only where the code of a contract
does. -/
theorem writeClients_unwritten {allMutated : Bool} {cs : List Contract} {flavors : List Flavor}
    {e : Failure} (can : ∀ f ∈ flavors, before.CanWrite (clientPath place f.name))
    (failed : (writeClients place allMutated cs flavors).Fails before e after) :
    ∃ f ∈ flavors, ∃ c ∈ cs, (f.client c).result = .error e := by
  induction flavors generalizing before with
  | nil => exact (Filing.fails_pure_iff.mp failed).elim
  | cons f rest ih =>
      obtain ⟨here, others⟩ := List.forall_mem_cons.mp can
      unfold writeClients at failed
      simp only [Filing.fails_bind_iff, Filing.fails_traced_iff, Filing.leads_traced_iff,
        Filing.fails_pure_iff, fails_write_iff, leads_write_iff] at failed
      rcases failed with ⟨unmade, -⟩ | ⟨file, _, ⟨-, rfl⟩, ⟨unwritten, -⟩ | ⟨_, between, written,
        later | ⟨_, _, -, ⟨⟩⟩⟩⟩
      · obtain ⟨c, member, failed⟩ := Flavor.fileOf_failsOnly_client _ unmade
        exact ⟨f, List.mem_cons_self, c, member, failed⟩
      · obtain ⟨after, written⟩ := here.exists_writeText (file.render f.profile)
        rw [unwritten] at written
        cases written
      · obtain ⟨g, member, failed⟩ := ih (fun g member => (others g member).after written) later
        exact ⟨g, List.mem_cons_of_mem _ member, failed⟩

/-- **There is no package only for one of the reasons.** -/
theorem generate_unwritten {e : Failure}
    (failed : (generate registry config profile place names api).Fails before e after) :
    Unwritten registry config profile place names api before e := by
  unfold generate Filing.makeFolder at failed
  simp only [Filing.fails_bind_iff, Filing.fails_attempt_iff, Filing.fails_traced_iff,
    Filing.fails_pure_iff, Filing.fails_update_iff, Filing.leads_attempt_iff,
    Filing.leads_update_iff, Filing.leads_traced_iff, leads_write_iff, fails_write_iff] at failed
  rcases failed with ⟨unknown, -⟩ | ⟨flavors, _, ⟨found, rfl⟩, failed⟩
  · have looked : FailsOnly IsReport
        (names.mapM (fun name => registry.get name profile) : Attempt (List Flavor)) := by
      refine .mapM fun name _ => ?_
      unfold Registry.get
      split
      · exact .ok _
      · exact .error ⟨_, rfl⟩
    obtain ⟨report, rfl⟩ := looked e unknown
    exact .reported report
  by_cases writable : Writable before place flavors
  swap
  · exact .output found writable
  obtain ⟨made, folder, can⟩ := writable
  obtain ⟨models, clients⟩ := List.forall_mem_cons.mp can
  rcases failed with ⟨noFolder, -⟩ | ⟨_, _, again, failed⟩
  · rw [folder] at noFolder
    cases noFolder
  cases folder.symm.trans again
  rcases failed with ⟨unbuilt, -⟩ | ⟨⟨cs, reports⟩, _, ⟨built, rfl⟩, failed⟩
  · obtain ⟨unreported, op, member, failed⟩ := contracts_failsOnly _ _ e unbuilt
    exact .operation member failed unreported
  rcases failed with ⟨undeclared, -⟩ | ⟨file, _, ⟨-, rfl⟩, failed⟩
  · rcases ModelsFile.build_reports _ _ _ e undeclared with
      ⟨report, rfl⟩ | ⟨entry, member, noComponent⟩
    · exact .reported report
    · exact .schema member noComponent
  rcases failed with ⟨unwritten, -⟩ | ⟨_, between, written, later | ⟨_, _, -, ⟨⟩⟩⟩
  · obtain ⟨after, written⟩ := models.exists_writeText file.render
    rw [unwritten] at written
    cases written
  · have canWrite : ∀ f ∈ flavors, between.CanWrite (clientPath place f.name) := fun f member =>
      (clients _ (List.mem_map.mpr ⟨f, member, rfl⟩)).after written
    obtain ⟨f, there, c, among, failed⟩ := writeClients_unwritten canWrite later
    obtain ⟨name, listed, get⟩ := exists_of_mem_right (Attempt.mapM_eq_ok found) there
    obtain ⟨op, kept, contract⟩ := exists_of_mem_right (contracts_iff.mp built).1 among
    exact .client listed get (List.mem_filter.mp kept).1 contract failed

end Runs

end Package

end ClientForge
