/-
# ClientForge.Proofs.Package.Isolation -- an operation that fails leaves no trace

The contracts of a package are those of the operations that can be built, and its failures
those of the others, both in the order of the document (`contracts_iff`).  Everything behind
that is made from the contracts and the component schemas alone, so a package without the
failing operations has the same files.

The code of an operation is a function of the operation and of its override, for a flavor and
a profile (`Registry.implementation`): neither the operations beside it nor its place among
them are read.
-/
import ClientForge.Package
import ClientForge.Proofs.Client.Failures
import ClientForge.Proofs.Files.Runs

namespace ClientForge

set_option autoImplicit false

open Files

/-- The settings and the contract of the operation can be read. -/
def Config.builds (config : Config) (op : Operation) : Bool := (config.contractFor op).result.isOk

/-- The implementation of an operation under an override, in a flavor for a project. -/
def Registry.implementation (registry : Registry) (name : String) (profile : Profile)
    (op : Operation) (o : Override) : Attempt String := do
  let flavor ← registry.get name profile
  let contract ← (op.contract o).result
  let code ← (flavor.client contract).result
  return code.implementation

theorem Registry.implementation_eq_ok {registry : Registry} {name : String} {profile : Profile}
    {f : Flavor} {op : Operation} {o : Override} {c : Contract} {text : String}
    (found : registry.get name profile = .ok f) (built : (op.contract o).result = .ok c)
    (implements : f.Implements c text) :
    registry.implementation name profile op o = .ok text := by
  obtain ⟨code, written, rfl⟩ := implements
  rw [implementation, found]
  dsimp only [bind, Except.bind]
  rw [built]
  dsimp only
  rw [written]
  rfl

theorem Config.contractFor_eq_ok {config : Config} {op : Operation} {c : Contract}
    (run : (config.contractFor op).result = .ok c) :
    ∃ o, config.overrideFor op.id op.extensions = .ok o ∧ (op.contract o).result = .ok c :=
  Traced.bind_eq_ok run

namespace Package

/-! ## Contracts and failures -/

section Contracts

variable {config : Config} {op : Operation} {rest ops : List Operation}

theorem contracts_cons_of_ok {c : Contract} (built : (config.contractFor op).result = .ok c) :
    (contracts config (op :: rest)).result =
      (contracts config rest).result.map fun (cs, reports) => (c :: cs, reports) := by
  have attempted : (config.contractFor op).attempt.result = .ok (.ok c) := congrArg _ built
  rw [contracts, Traced.bind_ok attempted]
  exact Traced.result_bind_pure _ _

theorem contracts_cons_of_reported {report : Report}
    (failed : (config.contractFor op).result = .error (.reported report)) :
    (contracts config (op :: rest)).result =
      (contracts config rest).result.map fun (cs, reports) => (cs, report :: reports) := by
  have attempted : (config.contractFor op).attempt.result = .ok (.error (.reported report)) :=
    congrArg _ failed
  have recorded : (Traced.record .warning .package ("Skipping operation: " ++ report.text)).result =
    .ok () := rfl
  rw [contracts, Traced.bind_ok attempted]
  dsimp only
  rw [Traced.bind_ok recorded]
  exact Traced.result_bind_pure _ _

theorem contracts_cons_eq_ok {cs : List Contract} {reports : List Report}
    (run : (contracts config (op :: rest)).result = .ok (cs, reports)) :
    (∃ c later, (config.contractFor op).result = .ok c ∧ cs = c :: later ∧
        (contracts config rest).result = .ok (later, reports)) ∨
      ∃ report later, (config.contractFor op).result = .error (.reported report) ∧
        reports = report :: later ∧ (contracts config rest).result = .ok (cs, later) := by
  cases result : (config.contractFor op).result with
  | ok c =>
      rw [contracts_cons_of_ok result] at run
      obtain ⟨⟨later, _⟩, behind, same⟩ := Attempt.map_eq_ok run
      cases same
      exact Or.inl ⟨c, later, rfl, rfl, behind⟩
  | error failure =>
      cases failure with
      | reported report =>
          rw [contracts_cons_of_reported result] at run
          obtain ⟨⟨_, later⟩, behind, same⟩ := Attempt.map_eq_ok run
          cases same
          exact Or.inr ⟨report, later, rfl, rfl, behind⟩
      | _ =>
          have attempted := congrArg (Except.ok (ε := Failure)) result
          rw [contracts, Traced.bind_ok attempted] at run
          cases run

theorem filter_cons_of_ok {c : Contract} (built : (config.contractFor op).result = .ok c)
    (rest : List Operation) :
    (op :: rest).filter config.builds = op :: rest.filter config.builds ∧
      ((op :: rest).filter fun op => !config.builds op) =
        rest.filter fun op => !config.builds op := by
  have builds : config.builds op = true := congrArg Except.isOk built
  simp [builds]

theorem filter_cons_of_error {e : Failure} (failed : (config.contractFor op).result = .error e)
    (rest : List Operation) :
    (op :: rest).filter config.builds = rest.filter config.builds ∧
      ((op :: rest).filter fun op => !config.builds op) =
        op :: rest.filter fun op => !config.builds op := by
  have fails : config.builds op = false := congrArg Except.isOk failed
  simp [fails]

/-- The contracts are those of the operations that can be built, and the failures those of the
others, in the order of the operations. -/
theorem contracts_iff {cs : List Contract} {reports : List Report} :
    (contracts config ops).result = .ok (cs, reports) ↔
      List.Forall₂ (fun op c => (config.contractFor op).result = .ok c)
          (ops.filter config.builds) cs ∧
        List.Forall₂ (fun op report => (config.contractFor op).result = .error (.reported report))
          (ops.filter fun op => !config.builds op) reports := by
  induction ops generalizing cs reports with
  | nil =>
      constructor
      · rintro ⟨⟩
        exact ⟨.nil, .nil⟩
      · rintro ⟨⟨⟩, ⟨⟩⟩
        rfl
  | cons op rest ih =>
      constructor
      · intro run
        rcases contracts_cons_eq_ok run with
          ⟨c, later, built, rfl, behind⟩ | ⟨report, later, failed, rfl, behind⟩
        · obtain ⟨here, there⟩ := filter_cons_of_ok built rest
          obtain ⟨kept, passed⟩ := ih.mp behind
          rw [here, there]
          exact ⟨.cons built kept, passed⟩
        · obtain ⟨here, there⟩ := filter_cons_of_error failed rest
          obtain ⟨kept, passed⟩ := ih.mp behind
          rw [here, there]
          exact ⟨kept, .cons failed passed⟩
      · cases result : (config.contractFor op).result with
        | ok c =>
            obtain ⟨here, there⟩ := filter_cons_of_ok result rest
            rw [here, there]
            rintro ⟨kept, passed⟩
            cases kept with
            | cons built later =>
                rw [contracts_cons_of_ok built, ih.mpr ⟨later, passed⟩]
                rfl
        | error failure =>
            obtain ⟨here, there⟩ := filter_cons_of_error result rest
            rw [here, there]
            rintro ⟨kept, passed⟩
            cases passed with
            | cons failed later =>
                rw [contracts_cons_of_reported failed, ih.mpr ⟨kept, later⟩]
                rfl

/-- Without the operations that fail there are the same contracts, and no failures. -/
theorem contracts_filter_eq_ok {cs : List Contract} {reports : List Report}
    (run : (contracts config ops).result = .ok (cs, reports)) :
    (contracts config (ops.filter config.builds)).result = .ok (cs, []) := by
  obtain ⟨kept, -⟩ := contracts_iff.mp run
  refine contracts_iff.mpr ⟨?_, ?_⟩
  · rwa [List.filter_filter, show (fun op => config.builds op && config.builds op) = config.builds
      from funext fun op => Bool.and_self _]
  · rw [List.filter_filter, show (fun op => !config.builds op && config.builds op) = fun _ => false
      from funext fun op => Bool.not_and_self _, List.filter_false]
    exact .nil

end Contracts

/-! ## Runs -/

section Runs

variable {registry : Registry} {config : Config} {profile : Profile} {place : PackagePlace}
  {names : List String} {api : Api} {before after : FileTable} {r : PackageResult}

theorem leads_write_iff {path : Path} {text : String} {count : Nat} {things : String} {u : Unit} :
    (write path text count things).Leads before u after ↔
      before.writeText path text = .ok after := by
  unfold write Filing.writeText
  simp only [Filing.leads_bind_iff, Filing.leads_update_iff, Filing.leads_traced_iff]
  constructor
  · rintro ⟨_, _, written, -, rfl⟩
    exact written
  · intro written
    exact ⟨(), after, written, rfl, rfl⟩

/-- A package is written in steps: the flavors are looked up, the folder is made, the contracts
are built, the models are written, and then the clients. -/
theorem generate_iff :
    (generate registry config profile place names api).Leads before r after ↔
      ∃ flavors made cs reports models between clients,
        names.mapM (fun name => registry.get name profile) = .ok flavors ∧
        before.makeFolder (folder place) = .ok made ∧
        (contracts config api.operations).result = .ok (cs, reports) ∧
        (ModelsFile.build config.override.useDates api.schemas cs).result = .ok models ∧
        made.writeText (modelsPath place) models.render = .ok between ∧
        (writeClients place config.hasGlobalMutator cs flavors).Leads between clients after ∧
        r = ⟨modelsPath place :: clients.paths, reports ++ clients.failures⟩ := by
  unfold generate Filing.makeFolder
  simp only [Filing.leads_bind_iff, Filing.leads_attempt_iff, Filing.leads_traced_iff,
    Filing.leads_pure_iff, Filing.leads_update_iff, leads_write_iff]
  constructor
  · rintro ⟨flavors, _, ⟨found, rfl⟩, _, made, folder, ⟨cs, reports⟩, _, ⟨built, rfl⟩, models, _,
      ⟨declared, rfl⟩, _, between, written, clients, _, later, rfl, rfl⟩
    exact ⟨flavors, made, cs, reports, models, between, clients, found, folder, built, declared,
      written, later, rfl⟩
  · rintro ⟨flavors, made, cs, reports, models, between, clients, found, folder, built, declared,
      written, later, rfl⟩
    exact ⟨flavors, _, ⟨found, rfl⟩, (), made, folder, (cs, reports), _, ⟨built, rfl⟩, models, _,
      ⟨declared, rfl⟩, (), between, written, clients, _, later, rfl, rfl⟩

/-- The clients are written one after the other, each from the contracts alone and for the project
of its flavor. -/
theorem writeClients_files {allMutated : Bool} {cs : List Contract} {flavors : List Flavor}
    (run : (writeClients place allMutated cs flavors).Leads before r after) :
    ∃ files : List ClientFile,
      List.Forall₂ (fun f file => (f.fileOf allMutated cs).result = .ok file) flavors files ∧
      r = ⟨flavors.map fun f => clientPath place f.name, files.flatMap ClientFile.failures⟩ ∧
      before.writeTexts (r.paths.zip
        ((flavors.zip files).map fun entry => entry.2.render entry.1.profile)) = .ok after := by
  induction flavors generalizing before r with
  | nil =>
      obtain ⟨rfl, rfl⟩ := Filing.leads_pure_iff.mp run
      exact ⟨[], .nil, rfl, rfl⟩
  | cons f rest ih =>
      unfold writeClients at run
      simp only [Filing.leads_bind_iff, Filing.leads_traced_iff, Filing.leads_pure_iff,
        leads_write_iff] at run
      obtain ⟨file, _, ⟨made, rfl⟩, _, between, written, later, _, behind, rfl, rfl⟩ := run
      obtain ⟨files, each, rfl, texts⟩ := ih behind
      refine ⟨file :: files, .cons made each, rfl, ?_⟩
      unfold FileTable.writeTexts at texts ⊢
      rw [List.zip_cons_cons, List.map_cons, List.zip_cons_cons, List.foldlM_cons, written]
      exact texts

/-- The flavors of a registry are all for the same project. -/
theorem writeClients_leads {allMutated : Bool} {cs : List Contract} {flavors : List Flavor}
    (ofProfile : ∀ f ∈ flavors, f.profile = profile)
    (run : (writeClients place allMutated cs flavors).Leads before r after) :
    ∃ files : List ClientFile,
      List.Forall₂ (fun f file => (f.fileOf allMutated cs).result = .ok file) flavors files ∧
      r = ⟨flavors.map fun f => clientPath place f.name, files.flatMap ClientFile.failures⟩ ∧
      before.writeTexts (r.paths.zip (files.map (ClientFile.render profile))) = .ok after := by
  obtain ⟨files, each, rfl, texts⟩ := writeClients_files run
  have rendered : (flavors.zip files).map (fun entry => entry.2.render entry.1.profile) =
      files.map (ClientFile.render profile) := by
    calc (flavors.zip files).map (fun entry => entry.2.render entry.1.profile)
        = (flavors.zip files).map (fun entry => entry.2.render profile) :=
          List.map_congr_left fun entry member => by rw [ofProfile _ (List.of_mem_zip member).1]
      _ = ((flavors.zip files).map Prod.snd).map (ClientFile.render profile) := by
          rw [List.map_map]
          rfl
      _ = files.map (ClientFile.render profile) := by
          rw [List.map_snd_zip (Nat.le_of_eq each.length_eq.symm)]
  rw [rendered] at texts
  exact ⟨files, each, rfl, texts⟩

end Runs

/-! ## Isolation -/

/-- **An operation that fails leaves no trace.**  If a package with the flavors that come with
the generator is written, then its failures are those of the operations that cannot be built,
one for each and in their order; without these operations the same files are written, byte by
byte, and nothing fails.

The files are the models and one client for every flavor, from the contracts of the other
operations.  A client has one implementation for each of them, in their order: the one that
`Registry.implementation` gives for the operation and its override alone, so it is the same in
every document and at every place in it. -/
theorem generate_isolates {config : Config} {profile : Profile} {place : PackagePlace}
    {names : List String} {api : Api} {before after : FileTable} {r : PackageResult}
    (run : (generate .builtIn config profile place names api).Leads before r after) :
    List.Forall₂ (fun op report => (config.contractFor op).result = .error (.reported report))
        (api.operations.filter fun op => !config.builds op) r.failures ∧
      (generate .builtIn config profile place names
        { api with operations := api.operations.filter config.builds }).Leads before
          ⟨r.paths, []⟩ after ∧
      ∃ cs made models clients,
        List.Forall₂ (fun op c => (config.contractFor op).result = .ok c)
          (api.operations.filter config.builds) cs ∧
        before.makeFolder (folder place) = .ok made ∧
        (ModelsFile.build config.override.useDates api.schemas cs).result = .ok models ∧
        r.paths = modelsPath place :: names.map (clientPath place) ∧
        made.writeTexts
          (r.paths.zip (models.render :: clients.map (ClientFile.render profile))) = .ok after ∧
        List.Forall₂ (fun name client =>
          (∃ f, Registry.builtIn.get name profile = .ok f ∧
            (f.fileOf config.hasGlobalMutator cs).result = .ok client) ∧
          List.Forall₂ (fun op text => ∃ o, config.overrideFor op.id op.extensions = .ok o ∧
              Registry.builtIn.implementation name profile op o = .ok text)
            (api.operations.filter config.builds) client.implementations) names clients := by
  obtain ⟨flavors, made, cs, reports, models, between, clients, found, folder, built, declared,
    written, later, rfl⟩ := generate_iff.mp run
  have looked := Attempt.mapM_eq_ok found
  have known : ∀ f ∈ flavors, f.ReportsNothing ∧ f.profile = profile := by
    intro f member
    obtain ⟨name, -, get⟩ := exists_of_mem_right looked member
    obtain ⟨quiet, -, ofProfile⟩ := Registry.builtIn_reportsNothing get
    exact ⟨quiet, ofProfile⟩
  have named : flavors.map (fun f => clientPath place f.name) = names.map (clientPath place) := by
    rw [eq_comm, ← List.forall₂_eq_eq_eq, List.forall₂_map_left_iff, List.forall₂_map_right_iff]
    exact looked.imp fun name f get => congrArg _ (Registry.builtIn_reportsNothing get).2.1.symm
  obtain ⟨files, each, rfl, texts⟩ := writeClients_leads (fun f member => (known f member).2) later
  have quiet : files.flatMap ClientFile.failures = [] := by
    refine List.flatMap_eq_nil_iff.mpr fun file member => ?_
    obtain ⟨f, listed, made⟩ := exists_of_mem_right each member
    exact (Flavor.fileOf_eq_ok (known f listed).1 made).1
  rw [quiet] at later
  obtain ⟨kept, passed⟩ := contracts_iff.mp built
  refine ⟨?_, generate_iff.mpr ?_, cs, made, models, files, kept, folder, declared, ?_, ?_, ?_⟩
  · rw [quiet, List.append_nil]
    exact passed
  · exact ⟨flavors, made, cs, [], models, between, _, found, folder, contracts_filter_eq_ok built,
      declared, written, later, rfl⟩
  · rw [named]
  · unfold FileTable.writeTexts at texts ⊢
    rw [List.zip_cons_cons, List.foldlM_cons, written]
    exact texts
  · refine forall₂_comp (fun name f file get made => ?_) looked each
    obtain ⟨-, implemented⟩ :=
      Flavor.fileOf_eq_ok (Registry.builtIn_reportsNothing get).1 made
    refine ⟨⟨f, get, made⟩, forall₂_comp (fun op c text built implements => ?_) kept implemented⟩
    obtain ⟨o, override, contract⟩ := Config.contractFor_eq_ok built
    exact ⟨o, override, Registry.implementation_eq_ok get contract implements⟩

/-- A search whose parameter says nothing about its values. -/
def bareSearch : Operation where
  verb := .get
  path := .str "/search"
  id := some (.str "search")
  parameters := [⟨.str "q", .str "query", false, none, [], none, none⟩]
  requestBody := none
  responses := []
  extensions := []

/-- A search without parameters. -/
def plainSearch : Operation := { bareSearch with id := some (.str "searchAll"), parameters := [] }

theorem generate_isolates_bareSearch :
    ∃ r after,
      (generate .builtIn {} ⟨true, true⟩ ⟨"api", .ofText "/out"⟩ ["swr"]
        ⟨[], [bareSearch, plainSearch]⟩).Leads ⟨[], [], []⟩ r after ∧
      r.failures.length = 1 ∧
      (generate .builtIn {} ⟨true, true⟩ ⟨"api", .ofText "/out"⟩ ["swr"]
        ⟨[], [plainSearch]⟩).Leads ⟨[], [], []⟩ ⟨r.paths, []⟩ after := by
  have fails : Config.builds {} bareSearch = false := by decide +kernel
  have builds : Config.builds {} plainSearch = true := by decide +kernel
  have runs : ((generate .builtIn {} ⟨true, true⟩ ⟨"api", .ofText "/out"⟩ ["swr"]
      ⟨[], [bareSearch, plainSearch]⟩).run ⟨[], [], []⟩).2.result.isOk = true := by
    decide +kernel
  cases result : ((generate .builtIn {} ⟨true, true⟩ ⟨"api", .ofText "/out"⟩ ["swr"]
      ⟨[], [bareSearch, plainSearch]⟩).run ⟨[], [], []⟩).2.result with
  | error e =>
      rw [result] at runs
      cases runs
  | ok r =>
      obtain ⟨failures, without, -⟩ := generate_isolates ⟨result, rfl⟩
      simp only [List.filter_cons, List.filter_nil, fails, builds] at failures without
      exact ⟨r, _, ⟨result, rfl⟩, failures.length_eq.symm, without⟩

end Package

end ClientForge
