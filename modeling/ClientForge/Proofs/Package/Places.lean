/-
# ClientForge.Proofs.Package.Places -- where a reported failure says that it happened

Errors are raised without a place.  Two wrappers place them: the one around the contract of an
operation, and the one around the code of a contract in a flavor.  `Failure.Unplaced` is what
holds inside of the first, and `Failure.FitsIn` what a flavor has to keep for the second:
an error that names a place names that of its contract.

`generate_places` follows every operation of a document to its failures.  The settings of an
operation are read in front of both wrappers, so an extension of the wrong shape is reported
without any place (`generate_unplaced`).
-/
import ClientForge.Proofs.Config.Layers
import ClientForge.Proofs.Package.Isolation

namespace ClientForge

set_option autoImplicit false

open Attempt (FailsOnly)
open Files

/-! ## Places -/

/-- The report names the operation and its route. -/
def Report.Locates (report : Report) (op : Operation) : Prop :=
  ∃ name, op.functionName = .ok name ∧ report.operation = some name ∧
    report.route = some op.route

namespace Failure

/-- A report that names no place. -/
def Unplaced : Failure → Prop
  | .reported report => report.operation = none ∧ report.route = none
  | _ => True

/-- A report that names no other place than this. -/
def FitsIn (operation route : String) : Failure → Prop
  | .reported report => (∀ o ∈ report.operation, o = operation) ∧ ∀ r ∈ report.route, r = route
  | _ => True

theorem unplaced_of (cause : Cause) : (Failure.of cause).Unplaced := ⟨rfl, rfl⟩

theorem Unplaced.fitsIn {e : Failure} (unplaced : e.Unplaced) (operation route : String) :
    e.FitsIn operation route := by
  cases e with
  | reported report =>
      obtain ⟨operation, route⟩ := unplaced
      simp [FitsIn, operation, route]
  | _ => trivial

theorem IsSetting.unplaced {e : Failure} (setting : e.IsSetting) : e.Unplaced := by
  obtain ⟨fault, rfl⟩ := setting
  exact unplaced_of _

/-- Placing a report that fits names exactly this place. -/
theorem FitsIn.placedAt {report : Report} {operation route : String}
    (fits : FitsIn operation route (.reported report)) :
    (report.placedAt operation route).operation = some operation ∧
      (report.placedAt operation route).route = some route := by
  obtain ⟨sameOperation, sameRoute⟩ := fits
  constructor
  · cases given : report.operation with
    | none => simp [Report.placedAt, given]
    | some o => simp [Report.placedAt, given, sameOperation o given]
  · cases given : report.route with
    | none => simp [Report.placedAt, given]
    | some r => simp [Report.placedAt, given, sameRoute r given]

end Failure

open Failure (Unplaced FitsIn)

/-! ## Contracts -/

theorem Schema.resolve_unplaced (useDates : Bool) (schema : Value) (inlineNamed : Bool) :
    (Schema.resolve useDates schema inlineNamed).FailsOnly Unplaced := by
  refine (FailsOnly.mono (Schema.read_failsOnly useDates schema _ .refl _) fun e reason => ?_).map
  cases reason with
  | illShaped => trivial
  | foreign => exact Failure.unplaced_of _

theorem RawParameter.normalize_unplaced (useDates : Bool) (p : RawParameter) :
    (p.normalize useDates).FailsOnly Unplaced := by
  refine .bind ?_ fun source _ => .bind (Schema.resolve_unplaced _ _ _) fun type _ => .ok _
  unfold RawParameter.source
  split
  · exact .ok _
  · split
    · exact .ok _
    · exact .error (Failure.unplaced_of _)

theorem Body.normalize_unplaced (o : Override) (request : Option RequestBody) :
    (Body.normalize o request).FailsOnly Unplaced := by
  have kind : ∀ start mediaType, (Body.hasType start mediaType).FailsOnly Unplaced := by
    intro start mediaType
    cases mediaType with
    | str s => exact .ok _
    | _ => exact .error trivial
  unfold Body.normalize
  split
  · exact .ok _
  · split
    · exact .ok _
    · refine .bind (Schema.resolve_unplaced _ _ _) fun type _ => ?_
      refine .choice (kind _ _) (.ok false) fun _ => ?_
      exact .choice (kind _ _) (.ok false) fun _ => .ok _

theorem Answer.typed_unplaced (useDates : Bool) (responses : List Response) :
    (Answer.typed useDates responses).FailsOnly Unplaced := by
  induction responses with
  | nil => exact .ok []
  | cons response rest ih =>
      unfold Answer.typed
      split
      · exact ih
      · exact .bind (Schema.resolve_unplaced _ _ _) fun type _ => .bind ih fun types _ => .ok _

namespace Contract

theorem group_unplaced (o : Override) (parameters : List RawParameter) :
    (group o parameters).FailsOnly Unplaced := by
  refine .foldlM fun p _ g => ?_
  unfold groupOne
  split
  · split
    · exact .error (Failure.unplaced_of _)
    · split
      · exact .error (Failure.unplaced_of _)
      · exact .bind (RawParameter.normalize_unplaced _ _) fun q _ => .ok _
  · exact .error trivial

theorem groupPart_unplaced (typeName slotName : String) (role : Role) (members : List Parameter) :
    (groupPart typeName slotName role members).FailsOnly Unplaced := by
  unfold groupPart
  split
  · exact .ok _
  · refine .bind (.bind (.mapM fun p _ => ?_) fun properties _ => .ok _) fun d _ => .ok _
    exact .bind (textOf_failsOnly trivial _) fun name _ => .ok _

/-- Before it is placed, an error of a contract names no place. -/
theorem build_unplaced (name : String) (op : Operation) (o : Override) :
    (build name op o).result.FailsOnly Unplaced := by
  have slots : ∀ members : List Parameter,
      (members.mapM pathSlot : Attempt (List Slot)).FailsOnly Unplaced :=
    fun members => .mapM fun p _ => .bind (textOf_failsOnly trivial _) fun name _ => .ok _
  have answer : (Answer.normalize o op.responses).FailsOnly Unplaced :=
    .bind (Answer.typed_unplaced _ _) fun types _ => .ok _
  unfold build
  refine Traced.bind_failsOnly (group_unplaced _ _) fun parameters _ => ?_
  refine Traced.record_failsOnly ?_
  refine Traced.bind_failsOnly (Body.normalize_unplaced _ _) fun body _ => ?_
  refine Traced.bind_failsOnly answer fun answer _ => ?_
  refine Traced.bind_failsOnly (slots _) fun path _ => ?_
  refine Traced.bind_failsOnly (groupPart_unplaced _ _ _ _) fun query _ => ?_
  refine Traced.bind_failsOnly (groupPart_unplaced _ _ _ _) fun header _ => ?_
  refine Traced.bind_failsOnly (.ok _) fun _ _ => ?_
  exact Traced.bind_failsOnly (textOf_failsOnly trivial _) fun path _ => .ok _

end Contract

namespace Operation

theorem functionName_failsOnly (op : Operation) : op.functionName.FailsOnly (· = .illShaped) := by
  unfold functionName
  split
  · exact .ok _
  · split
    · exact .ok _
    · refine .bind (Contract.textOf_failsOnly ?_ _) fun name _ => .ok _
      rfl

/-- An error of a contract is reported at its operation. -/
theorem contract_locates {op : Operation} {o : Override} {report : Report}
    (failed : (op.contract o).result = .error (.reported report)) : report.Locates op := by
  unfold contract at failed
  rcases Traced.bind_eq_error failed with unnamed | ⟨name, named, failed⟩
  · cases functionName_failsOnly op _ unnamed
  obtain ⟨result, attempted, failed⟩ := (Traced.bind_eq_error failed).resolve_left nofun
  have built : (Contract.build name op o).result = result := Except.ok.inj attempted
  cases result with
  | ok c => cases failed
  | error e =>
      cases e with
      | reported inner =>
          cases failed
          have fits := (Contract.build_unplaced name op o _ built).fitsIn name op.route
          exact ⟨name, named, fits.placedAt⟩
      | _ => cases failed

/-- A contract is known by the name and the route of its operation. -/
theorem contract_place {op : Operation} {o : Override} {c : Contract}
    (built : (op.contract o).result = .ok c) :
    op.functionName = .ok c.name ∧ c.location = op.route := by
  unfold contract at built
  obtain ⟨name, named, run⟩ := Traced.bind_eq_ok built
  obtain ⟨result, attempted, run⟩ := Traced.bind_eq_ok run
  cases result with
  | error e => cases run
  | ok d =>
      cases run
      have made : (Contract.build name op o).result = .ok c := Except.ok.inj attempted
      obtain ⟨rfl, path, -⟩ := Contract.build_keeps made
      obtain ⟨_, _, _, _, _, assembled⟩ := Contract.build_eq_ok made
      refine ⟨named, ?_⟩
      rw [Contract.location, Operation.route, assembled.verb, path]
      rfl

end Operation

/-! ## Settings -/

namespace Config

theorem setting?_failsOnly {reasons : Failure → Prop} (shape : reasons .illShaped) (raw : Value)
    (key : String) : (setting? raw key).FailsOnly reasons := by
  unfold setting?
  repeat' split
  all_goals first
    | exact .ok _
    | exact .error shape

theorem settingsFor_unplaced (config : Config) (id : Option Value) :
    (settingsFor config id).FailsOnly Unplaced := by
  have settings : ∀ e, Failure.IsSetting e → e.Unplaced := fun e => Failure.IsSetting.unplaced
  have applied : ∀ raw, (applySettings config.override raw).FailsOnly Unplaced := fun raw =>
    applySettings_failsOnly_of _ settings fun key => setting?_failsOnly trivial raw key
  unfold settingsFor
  split
  · exact .ok _
  · split
    · exact .ok _
    · split
      · split
        · exact .ok _
        · refine .bind (applied _) fun own _ => ?_
          split
          · exact (rejectSetting_failsOnly _).mono settings
          · exact .ok _
      · exact .ok _
      · exact .error trivial

/-- The settings of an operation are read without any place. -/
theorem overrideFor_unplaced (config : Config) (id : Option Value) (extensions : Entries) :
    (overrideFor config id extensions).FailsOnly Unplaced :=
  overrideFor_failsOnly_of (fun _ => Failure.IsSetting.unplaced) (settingsFor_unplaced config id)
    extensions

/-- An operation has no contract because of its settings, or because of what it declares. -/
theorem contractFor_eq_error {config : Config} {op : Operation} {e : Failure}
    (failed : (config.contractFor op).result = .error e) :
    config.overrideFor op.id op.extensions = .error e ∨
      ∃ o, config.overrideFor op.id op.extensions = .ok o ∧ (op.contract o).result = .error e :=
  Traced.bind_eq_error failed

end Config

/-! ## Flavors -/

namespace Flavor

/-- What the flavor reports about a contract names no other place than that of the contract. -/
def ReportsInPlace (f : Flavor) : Prop :=
  ∀ c, (f.client c).result.FailsOnly (FitsIn c.name c.location)

/-- What the flavor reports about a contract, if it does. -/
def report? (f : Flavor) (c : Contract) : Option Report :=
  match (f.client c).result with
  | .error (.reported report) => some report
  | _ => none

/-- A flavor that cannot write some contracts. -/
def refusing (f : Flavor) (refuse : Contract → Option Cause) : Flavor :=
  { f with
    client := fun c =>
      match refuse c with
      | some cause => .fail (.of cause)
      | none => f.client c }

theorem ReportsNothing.inPlace {f : Flavor} (quiet : f.ReportsNothing) : f.ReportsInPlace := by
  intro c e failed
  cases quiet c e failed
  trivial

theorem ReportsInPlace.refusing {f : Flavor} (inPlace : f.ReportsInPlace)
    (refuse : Contract → Option Cause) : (f.refusing refuse).ReportsInPlace := by
  intro c
  dsimp only [Flavor.refusing]
  split
  · exact .error ((Failure.unplaced_of _).fitsIn _ _)
  · exact inPlace c

theorem report?_eq_some {f : Flavor} {c : Contract} {report : Report}
    (reports : f.report? c = some report) : (f.client c).result = .error (.reported report) := by
  unfold report? at reports
  split at reports
  · rename_i inner failed
    cases reports
    exact failed
  · cases reports

section Files

variable {f : Flavor} {flags : HeaderFlags} {allMutated : Bool} {c : Contract}
  {contracts : List Contract} {file file' : ClientFile}

theorem codeOf_eq_error {e : Failure} (failed : (f.codeOf flags allMutated c).result = .error e) :
    (f.client c).result = .error e := by
  rcases Traced.bind_eq_error failed with failed | ⟨code, -, added⟩
  · exact failed
  · cases added

/-- A contract adds to the failures of a file what the flavor reports about it. -/
theorem addTo_failures (run : (f.addTo flags allMutated file c).result = .ok file') :
    file'.failures =
      file.failures ++ ((f.report? c).map (Report.placedAt · c.name c.location)).toList := by
  unfold addTo at run
  obtain ⟨result, attempted, run⟩ := Traced.bind_eq_ok run
  have coded : (f.codeOf flags allMutated c).result = result := Except.ok.inj attempted
  cases result with
  | ok operation =>
      cases run
      obtain ⟨code, written, -⟩ := Traced.bind_eq_ok coded
      simp [report?, written, ClientFile.add]
  | error failure =>
      have failed := codeOf_eq_error coded
      cases failure with
      | reported report =>
          obtain ⟨_, -, run⟩ := Traced.bind_eq_ok run
          cases run
          simp [report?, failed]
      | _ => cases run

/-- The failures of a file are those of its contracts, in their order. -/
theorem fileOf_failures (run : (f.fileOf allMutated contracts).result = .ok file) :
    file.failures =
      contracts.filterMap fun c => (f.report? c).map (Report.placedAt · c.name c.location) := by
  have folds : ∀ {flags : HeaderFlags} {start file : ClientFile},
      (contracts.foldlM (f.addTo flags allMutated) start).result = .ok file →
        file.failures = start.failures ++ contracts.filterMap fun c =>
          (f.report? c).map (Report.placedAt · c.name c.location) := by
    intro flags start file run
    clear * - run
    induction contracts generalizing start with
    | nil =>
        cases run
        simp
    | cons c rest ih =>
        rw [List.foldlM_cons] at run
        obtain ⟨middle, first, later⟩ := Traced.bind_eq_ok run
        rw [ih later, addTo_failures first, List.append_assoc]
        cases report : f.report? c with
        | none => simp [report]
        | some inner => simp [report]
  unfold fileOf at run
  obtain ⟨written, folded, run⟩ := Traced.bind_eq_ok run
  obtain ⟨_, -, run⟩ := Traced.bind_eq_ok run
  cases run
  exact folds folded

end Files

end Flavor

/-! ## Packages -/

namespace Package

/-- The operation has a contract, and the flavor under the name reports something about it. -/
def refuses (registry : Registry) (config : Config) (profile : Profile) (name : String)
    (op : Operation) : Bool :=
  match registry.get name profile, (config.contractFor op).result with
  | .ok f, .ok c => (f.report? c).isSome
  | _, _ => false

section Runs

variable {registry : Registry} {config : Config} {profile : Profile} {place : PackagePlace}
  {names : List String} {api : Api} {before after : FileTable} {r : PackageResult}

/-- The report says where the flavor failed for the operation, and why. -/
def FailsIn (registry : Registry) (config : Config) (profile : Profile)
    (entry : String × Operation) (report : Report) : Prop :=
  report.Locates entry.2 ∧
    ∃ f c raised, registry.get entry.1 profile = .ok f ∧
      (config.contractFor entry.2).result = .ok c ∧
      (f.client c).result = .error (.reported raised) ∧ report.cause = raised.cause

/-- The flavor has this to report about the contract of the operation. -/
def RaisedIn (registry : Registry) (config : Config) (profile : Profile)
    (entry : String × Operation) (report : Report) : Prop :=
  ∃ f c raised, registry.get entry.1 profile = .ok f ∧
    (config.contractFor entry.2).result = .ok c ∧
    (f.client c).result = .error (.reported raised) ∧ report = raised.placedAt c.name c.location

theorem RaisedIn.failsIn {entry : String × Operation} {report : Report}
    (raisedIn : RaisedIn registry config profile entry report)
    (inPlace : ∀ f, registry.get entry.1 profile = .ok f → f.ReportsInPlace) :
    FailsIn registry config profile entry report := by
  obtain ⟨f, c, raised, found, built, failed, rfl⟩ := raisedIn
  obtain ⟨o, -, contract⟩ := Config.contractFor_eq_ok built
  obtain ⟨named, located⟩ := Operation.contract_place contract
  obtain ⟨operation, route⟩ := (inPlace f found c _ failed).placedAt
  refine ⟨⟨c.name, named, operation, ?_⟩, f, c, raised, found, built, failed, rfl⟩
  rw [route, located]

/-- The failures of a flavor are those of the operations that it refuses, in their order. -/
theorem raised_by_flavor {name : String} {f : Flavor} {ops : List Operation} {cs : List Contract}
    (found : registry.get name profile = .ok f)
    (built : List.Forall₂ (fun op c => (config.contractFor op).result = .ok c)
      (ops.filter config.builds) cs) :
    List.Forall₂ (RaisedIn registry config profile)
      ((ops.filter (refuses registry config profile name)).map fun op => (name, op))
      (cs.filterMap fun c => (f.report? c).map (Report.placedAt · c.name c.location)) := by
  induction ops generalizing cs with
  | nil =>
      cases built
      exact .nil
  | cons op rest ih =>
      cases result : (config.contractFor op).result with
      | error e =>
          have refused : refuses registry config profile name op = false := by
            simp [refuses, found, result]
          rw [(filter_cons_of_error result rest).1] at built
          rw [List.filter_cons_of_neg (by simp [refused])]
          exact ih built
      | ok c =>
          rw [(filter_cons_of_ok result rest).1] at built
          cases built with
          | cons first later =>
              obtain rfl := Except.ok.inj (result.symm.trans first)
              cases reports : f.report? c with
              | none =>
                  have refused : refuses registry config profile name op = false := by
                    simp [refuses, found, result, reports]
                  rw [List.filter_cons_of_neg (by simp [refused]),
                    List.filterMap_cons_none (by simp [reports])]
                  exact ih later
              | some raised =>
                  have refused : refuses registry config profile name op = true := by
                    simp [refuses, found, result, reports]
                  rw [List.filter_cons_of_pos refused, List.map_cons,
                    List.filterMap_cons_some (by rw [reports, Option.map_some])]
                  have raisedIn : RaisedIn registry config profile (name, op)
                      (raised.placedAt c.name c.location) :=
                    ⟨f, c, raised, found, first, Flavor.report?_eq_some reports, rfl⟩
                  exact .cons raisedIn (ih later)

/-- The failures of all flavors, one flavor after the other. -/
theorem raised_by_flavors {allMutated : Bool} {ops : List Operation} {cs : List Contract}
    {flavors : List Flavor} {files : List ClientFile}
    (found : List.Forall₂ (fun name f => registry.get name profile = .ok f) names flavors)
    (made : List.Forall₂ (fun f file => (f.fileOf allMutated cs).result = .ok file) flavors files)
    (built : List.Forall₂ (fun op c => (config.contractFor op).result = .ok c)
      (ops.filter config.builds) cs) :
    List.Forall₂ (RaisedIn registry config profile)
      (names.flatMap fun name =>
        (ops.filter (refuses registry config profile name)).map fun op => (name, op))
      (files.flatMap ClientFile.failures) := by
  induction found generalizing files with
  | nil =>
      cases made
      exact .nil
  | @cons name f _ _ here found ih =>
      cases made with
      | cons written made =>
          rw [List.flatMap_cons, List.flatMap_cons, Flavor.fileOf_failures written]
          exact List.rel_append (raised_by_flavor here built) (ih made)

theorem failures_of_flavors {allMutated : Bool} {ops : List Operation} {cs : List Contract}
    {flavors : List Flavor} {files : List ClientFile}
    (inPlace : ∀ name ∈ names, ∀ f, registry.get name profile = .ok f → f.ReportsInPlace)
    (found : List.Forall₂ (fun name f => registry.get name profile = .ok f) names flavors)
    (made : List.Forall₂ (fun f file => (f.fileOf allMutated cs).result = .ok file) flavors files)
    (built : List.Forall₂ (fun op c => (config.contractFor op).result = .ok c)
      (ops.filter config.builds) cs) :
    List.Forall₂ (FailsIn registry config profile)
      (names.flatMap fun name =>
        (ops.filter (refuses registry config profile name)).map fun op => (name, op))
      (files.flatMap ClientFile.failures) := by
  obtain ⟨length, each⟩ := List.forall₂_iff_zip.mp (raised_by_flavors found made built)
  refine List.forall₂_iff_zip.mpr ⟨length, fun {entry report} member => ?_⟩
  obtain ⟨name, listed, among⟩ := List.mem_flatMap.mp (List.of_mem_zip member).1
  obtain ⟨op, -, rfl⟩ := List.mem_map.mp among
  exact (each member).failsIn (inPlace name listed)

/-- **Where failures are reported.**  The failures of a package are those of the operations
without a contract, one for each and in their order, and behind them for every flavor those of
the operations that it refuses, one for each and in their order.

All of them name their operation and its route, except where the settings of an operation
cannot be read: such a failure names no place at all. -/
theorem generate_places
    (inPlace : ∀ name ∈ names, ∀ f, registry.get name profile = .ok f → f.ReportsInPlace)
    (run : (generate registry config profile place names api).Leads before r after) :
    ∃ early late, r.failures = early ++ late ∧
      List.Forall₂ (fun op report =>
          (∃ o, config.overrideFor op.id op.extensions = .ok o) ∧ report.Locates op ∨
          config.overrideFor op.id op.extensions = .error (.reported report) ∧
            report.operation = none ∧ report.route = none)
        (api.operations.filter fun op => !config.builds op) early ∧
      List.Forall₂ (FailsIn registry config profile)
        (names.flatMap fun name =>
          (api.operations.filter (refuses registry config profile name)).map fun op => (name, op))
        late := by
  obtain ⟨flavors, made, cs, reports, models, between, clients, found, folder, built, declared,
    written, later, rfl⟩ := generate_iff.mp run
  obtain ⟨kept, passed⟩ := contracts_iff.mp built
  obtain ⟨files, each, rfl, -⟩ := writeClients_files later
  refine ⟨reports, _, rfl, passed.imp fun op report failed => ?_, ?_⟩
  · rcases Config.contractFor_eq_error failed with settings | ⟨o, settings, contract⟩
    · exact Or.inr ⟨settings, config.overrideFor_unplaced _ _ _ settings⟩
    · exact Or.inl ⟨⟨o, settings⟩, Operation.contract_locates contract⟩
  · exact failures_of_flavors inPlace (Attempt.mapM_eq_ok found) each kept

end Runs

/-- A search with a flag that is no boolean. -/
def flaggedSearch : Operation :=
  { plainSearch with extensions := [(.str "x-hookify-form-data", .str "yes")] }

/-- A registry whose flavor writes no query. -/
def queryless : Registry :=
  ⟨[("swr", fun profile => (Flavor.swr profile).refusing fun c =>
    if c.verb = .get then some (.verbKind "get") else none)]⟩

theorem generate_places_searches :
    (∀ name ∈ ["swr"], ∀ f, queryless.get name ⟨true, true⟩ = .ok f → f.ReportsInPlace) ∧
    ∃ r after early late,
      (generate queryless {} ⟨true, true⟩ ⟨"api", .ofText "/out"⟩ ["swr"]
        ⟨[], [bareSearch, flaggedSearch, plainSearch]⟩).Leads ⟨[], [], []⟩ r after ∧
      r.failures = early ++ late ∧ early.length = 2 ∧ late.length = 1 := by
  have inPlace : ∀ name ∈ ["swr"], ∀ f, queryless.get name ⟨true, true⟩ = .ok f →
      f.ReportsInPlace := by
    intro name member f found
    obtain rfl := List.mem_singleton.mp member
    cases found
    exact (Flavor.swr_reportsNothing _).inPlace.refusing _
  refine ⟨inPlace, ?_⟩
  have bare : Config.builds {} bareSearch = false := by decide +kernel
  have flagged : Config.builds {} flaggedSearch = false := by decide +kernel
  have plain : Config.builds {} plainSearch = true := by decide +kernel
  have refused : [bareSearch, flaggedSearch, plainSearch].map
      (refuses queryless {} ⟨true, true⟩ "swr") = [false, false, true] := by decide +kernel
  have runs : ((generate queryless {} ⟨true, true⟩ ⟨"api", .ofText "/out"⟩ ["swr"]
      ⟨[], [bareSearch, flaggedSearch, plainSearch]⟩).run ⟨[], [], []⟩).2.result.isOk = true := by
    decide +kernel
  cases result : ((generate queryless {} ⟨true, true⟩ ⟨"api", .ofText "/out"⟩ ["swr"]
      ⟨[], [bareSearch, flaggedSearch, plainSearch]⟩).run ⟨[], [], []⟩).2.result with
  | error e =>
      rw [result] at runs
      cases runs
  | ok r =>
      obtain ⟨early, late, failures, without, refusals⟩ := generate_places inPlace ⟨result, rfl⟩
      refine ⟨r, _, early, late, ⟨result, rfl⟩, failures, ?_, ?_⟩
      · rw [← without.length_eq]
        simp [bare, flagged, plain]
      · rw [← refusals.length_eq]
        simp only [List.map_cons, List.map_nil, List.cons.injEq] at refused
        simp [refused]

/-- The failure of an operation with a flag that is no boolean says nowhere where it happened. -/
theorem generate_unplaced :
    ∃ r after report,
      (generate .builtIn {} ⟨true, true⟩ ⟨"api", .ofText "/out"⟩ ["swr"]
        ⟨[], [flaggedSearch]⟩).Leads ⟨[], [], []⟩ r after ∧
      r.failures = [report] ∧ report.operation = none ∧ report.route = none ∧
      ¬ report.Locates flaggedSearch := by
  have runs : ((generate .builtIn {} ⟨true, true⟩ ⟨"api", .ofText "/out"⟩ ["swr"]
      ⟨[], [flaggedSearch]⟩).run ⟨[], [], []⟩).2.result.toOption.map PackageResult.failures =
        some [⟨.config (.flagNotBoolean "x-hookify-form-data"), none, none⟩] := by
    decide +kernel
  cases result : ((generate .builtIn {} ⟨true, true⟩ ⟨"api", .ofText "/out"⟩ ["swr"]
      ⟨[], [flaggedSearch]⟩).run ⟨[], [], []⟩).2.result with
  | error e =>
      rw [result] at runs
      cases runs
  | ok r =>
      rw [result] at runs
      refine ⟨r, _, _, ⟨result, rfl⟩, Option.some.inj runs, rfl, rfl, ?_⟩
      rintro ⟨name, -, ⟨⟩, -⟩

end Package

end ClientForge
