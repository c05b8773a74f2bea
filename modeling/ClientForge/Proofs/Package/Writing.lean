/-
# ClientForge.Proofs.Package.Writing -- a package is written as a whole, or not at all

Everything that can be reported comes before the first write: the flavors are looked up, the
contracts are built and the models are declared while there is only a folder.  Behind it there
are faults of the file system and values of the wrong shape, and neither is reported
(`writeClients_unreported`).

A run that ends has written one text for the models and one for each flavor
(`generate_writes`).  Two of the paths lead to one place only for the same file name, so for
the same text (`texts_agree`), and then every file has the text that was written for it.
-/
import ClientForge.Proofs.Files.Writing
import ClientForge.Proofs.Package.Isolation

namespace ClientForge

set_option autoImplicit false

open Files

/-- There is no result, for a reason that is reported. -/
def Attempt.isReported {α : Type} : Attempt α → Bool
  | .error (.reported _) => true
  | _ => false

theorem Attempt.exists_report {α : Type} {x : Attempt α} (failed : x.isReported = true) :
    ∃ report, x = .error (.reported report) := by
  cases x with
  | ok a => cases failed
  | error e =>
      cases e with
      | reported report => exact ⟨report, rfl⟩
      | _ => cases failed

namespace Package

/-- The flavor with this name makes the client from the contracts. -/
def Makes (profile : Profile) (allMutated : Bool) (cs : List Contract) (name : String)
    (client : ClientFile) : Prop :=
  ∃ f, Registry.builtIn.get name profile = .ok f ∧ (f.fileOf allMutated cs).result = .ok client

/-- The files of a package with their texts, models first. -/
def entries (place : PackagePlace) (profile : Profile) (names : List String)
    (models : ModelsFile) (clients : List ClientFile) : List (Path × String) :=
  (modelsPath place :: names.map (clientPath place)).zip
    (models.render :: clients.map (ClientFile.render profile))

section Runs

variable {registry : Registry} {config : Config} {profile : Profile} {place : PackagePlace}
  {names : List String} {api : Api} {before after : FileTable} {r : PackageResult}

/-! ## Runs that fail -/

theorem fails_write_iff {path : Path} {text : String} {count : Nat} {things : String}
    {e : Failure} :
    (write path text count things).Fails before e after ↔
      before.writeText path text = .error e ∧ before = after := by
  unfold write Filing.writeText
  simp only [Filing.fails_bind_iff, Filing.fails_update_iff, Filing.fails_traced_iff]
  constructor
  · rintro (failed | ⟨_, _, _, ⟨⟩, -⟩)
    exact failed
  · exact Or.inl

/-- Writing the clients fails for no reason that is reported. -/
theorem writeClients_unreported {allMutated : Bool} {cs : List Contract} {flavors : List Flavor}
    (quiet : ∀ f ∈ flavors, f.ReportsNothing) {report : Report} :
    ¬ (writeClients place allMutated cs flavors).Fails before (.reported report) after := by
  induction flavors generalizing before with
  | nil => exact Filing.fails_pure_iff.mp
  | cons f rest ih =>
      unfold writeClients
      simp only [Filing.fails_bind_iff, Filing.fails_traced_iff, fails_write_iff,
        Filing.fails_pure_iff]
      rintro (⟨rendered, -⟩ | ⟨file, _, -, ⟨written, -⟩ | ⟨_, _, -, later | ⟨_, _, -, ⟨⟩⟩⟩⟩)
      · cases Flavor.fileOf_failsOnly (quiet f List.mem_cons_self) _ rendered
      · exact FileTable.writeText_failsOnly _ _ written report rfl
      · exact ih (fun g member => quiet g (List.mem_cons_of_mem _ member)) later

/-- A package that fails for a reason that is reported has not been begun: there may be a new
folder, but the files are those from before. -/
theorem generate_fails
    (quiet : ∀ name ∈ names, ∀ f, registry.get name profile = .ok f → f.ReportsNothing)
    {report : Report}
    (failed : (generate registry config profile place names api).Fails before
      (.reported report) after) :
    after.files = before.files := by
  unfold generate Filing.makeFolder at failed
  simp only [Filing.fails_bind_iff, Filing.fails_attempt_iff, Filing.fails_traced_iff,
    Filing.fails_pure_iff, Filing.fails_update_iff, Filing.leads_attempt_iff,
    Filing.leads_update_iff, Filing.leads_traced_iff, leads_write_iff, fails_write_iff] at failed
  rcases failed with ⟨-, rfl⟩ | ⟨flavors, _, ⟨found, rfl⟩, folder⟩
  · rfl
  rcases folder with ⟨folder, rfl⟩ | ⟨_, made, folder, built⟩
  · rfl
  have untouched : made.files = before.files := FileTable.makeFolder_eq_ok folder
  rcases built with ⟨-, rfl⟩ | ⟨cs, _, ⟨-, rfl⟩, declared⟩
  · exact untouched
  rcases declared with ⟨-, rfl⟩ | ⟨models, _, ⟨-, rfl⟩, written⟩
  · exact untouched
  -- From here on there is something in the files, and nothing is reported.
  exfalso
  rcases written with ⟨written, -⟩ | ⟨_, between, -, later | ⟨_, _, -, ⟨⟩⟩⟩
  · exact FileTable.writeText_failsOnly _ _ written report rfl
  · refine writeClients_unreported (fun f member => ?_) later
    obtain ⟨name, listed, get⟩ := exists_of_mem_right (Attempt.mapM_eq_ok found) member
    exact quiet name listed f get

/-! ## Runs that end -/

/-- A run that ends has made the texts of the models and of the clients, and written them one
after the other. -/
theorem generate_writes
    (run : (generate .builtIn config profile place names api).Leads before r after) :
    ∃ made cs models clients,
      before.makeFolder (folder place) = .ok made ∧
      (contracts config api.operations).result = .ok (cs, r.failures) ∧
      (ModelsFile.build config.override.useDates api.schemas cs).result = .ok models ∧
      List.Forall₂ (Makes profile config.hasGlobalMutator cs) names clients ∧
      r.paths = modelsPath place :: names.map (clientPath place) ∧
      made.writeTexts (entries place profile names models clients) = .ok after := by
  obtain ⟨flavors, made, cs, reports, models, between, clients, found, folder, built, declared,
    written, later, rfl⟩ := generate_iff.mp run
  have looked := Attempt.mapM_eq_ok found
  have known : ∀ f ∈ flavors, f.ReportsNothing ∧ f.profile = profile := by
    intro f member
    obtain ⟨name, -, get⟩ := exists_of_mem_right looked member
    obtain ⟨quiet, -, ofProfile⟩ := Registry.builtIn_reportsNothing get
    exact ⟨quiet, ofProfile⟩
  have named : flavors.map (fun f => clientPath place f.name) = names.map (clientPath place) := by
    rw [eq_comm, ← List.forall₂_eq_eq_eq, List.forall₂_map_left_iff, List.forall₂_map_right_iff]
    exact looked.imp fun name f get => congrArg _ (Registry.builtIn_reportsNothing get).2.1.symm
  obtain ⟨files, each, rfl, texts⟩ := writeClients_leads (fun f member => (known f member).2) later
  have quiet : files.flatMap ClientFile.failures = [] := by
    refine List.flatMap_eq_nil_iff.mpr fun file member => ?_
    obtain ⟨f, listed, made⟩ := exists_of_mem_right each member
    exact (Flavor.fileOf_eq_ok (known f listed).1 made).1
  refine ⟨made, cs, models, files, folder, ?_, declared, ?_, ?_, ?_⟩
  · rw [quiet, List.append_nil]
    exact built
  · exact forall₂_comp (fun name f file get made => ⟨f, get, made⟩) looked each
  · rw [named]
  · rw [named] at texts
    unfold FileTable.writeTexts at texts ⊢
    rw [entries, List.zip_cons_cons, List.foldlM_cons, written]
    exact texts

end Runs

/-! ## Places of the files -/

theorem modelsPath_leads {t : FileTable} {place : PackagePlace} {there : Place}
    (run : t.reach (modelsPath place) = .ok there) : ∃ folder, there = folder ++ ["model.ts"] := by
  have name : Path.ofText "model.ts" = ⟨false, ["model.ts"]⟩ := by decide +kernel
  unfold modelsPath at run
  rw [name] at run
  exact FileTable.reach_join (by decide) run

theorem clientPath_leads {t : FileTable} {place : PackagePlace} {there : Place} {name : String}
    {profile : Profile} {f : Flavor} (get : Registry.builtIn.get name profile = .ok f)
    (run : t.reach (clientPath place name) = .ok there) :
    ∃ folder, there = folder ++ [name ++ ".ts"] ∧ name ++ ".ts" ≠ "model.ts" := by
  have file : Path.ofText (name ++ ".ts") = ⟨false, [name ++ ".ts"]⟩ ∧ name ++ ".ts" ≠ ".." ∧
      name ++ ".ts" ≠ "model.ts" := by
    rcases Registry.builtIn_get get with ⟨rfl, -⟩ | ⟨rfl, -⟩
    · decide +kernel
    · decide +kernel
  obtain ⟨alone, down, other⟩ := file
  unfold clientPath at run
  rw [alone] at run
  obtain ⟨folder, same⟩ := FileTable.reach_join down run
  exact ⟨folder, same, other⟩

section Texts

variable {t : FileTable} {place : PackagePlace} {profile : Profile} {allMutated : Bool}
  {cs : List Contract} {names : List String} {clients : List ClientFile} {models : ModelsFile}

/-- What a text of a package is, by the last name of the place that it goes to. -/
theorem text_of_place {entry : Path × String} {there : Place}
    (each : List.Forall₂ (Makes profile allMutated cs) names clients)
    (member : entry ∈ entries place profile names models clients)
    (run : t.reach entry.1 = .ok there) :
    ∃ folder file, there = folder ++ [file] ∧
      (file = "model.ts" ∧ entry.2 = models.render ∨
        file ≠ "model.ts" ∧ ∃ name client, file = name ++ ".ts" ∧
          Makes profile allMutated cs name client ∧ entry.2 = client.render profile) := by
  rw [entries, List.zip_cons_cons, List.zip_map] at member
  rcases List.mem_cons.mp member with rfl | member
  · obtain ⟨folder, same⟩ := modelsPath_leads run
    exact ⟨folder, _, same, Or.inl ⟨rfl, rfl⟩⟩
  · obtain ⟨⟨name, client⟩, listed, rfl⟩ := List.mem_map.mp member
    obtain ⟨f, get, made⟩ := List.forall₂_zip each listed
    obtain ⟨folder, same, other⟩ := clientPath_leads get run
    exact ⟨folder, _, same, Or.inr ⟨other, name, client, rfl, ⟨f, get, made⟩, rfl⟩⟩

/-- Two texts of a package that go to one place are the same text. -/
theorem texts_agree (each : List.Forall₂ (Makes profile allMutated cs) names clients) :
    ∀ entry ∈ entries place profile names models clients,
      ∀ entry' ∈ entries place profile names models clients, ∀ there,
        t.reach entry.1 = .ok there → t.reach entry'.1 = .ok there → entry.2 = entry'.2 := by
  intro entry member entry' member' there leads leads'
  obtain ⟨folder, file, rfl, kind⟩ := text_of_place each member leads
  obtain ⟨folder', file', same, kind'⟩ := text_of_place each member' leads'
  obtain ⟨-, rfl⟩ : folder = folder' ∧ file = file' := by simpa using same
  rcases kind with ⟨isModels, text⟩ | ⟨other, name, client, named, ⟨f, get, made⟩, text⟩
  · rcases kind' with ⟨-, text'⟩ | ⟨other', -⟩
    · rw [text, text']
    · exact absurd isModels other'
  · rcases kind' with ⟨isModels', -⟩ | ⟨-, name', client', named', ⟨f', get', made'⟩, text'⟩
    · exact absurd isModels' other
    · obtain rfl : name = name' := by simpa using named.symm.trans named'
      obtain rfl : f = f' := Except.ok.inj (get.symm.trans get')
      obtain rfl : client = client' := Except.ok.inj (made.symm.trans made')
      rw [text, text']

end Texts

/-! ## All or nothing -/

/-- **A package is written as a whole, or not at all.**  Let a package be asked for with the
names of flavors, known or not, in any order, over any files.

If it fails for a reason that is reported, then no file was made and none was changed: the
files, byte by byte, are those from before.

If it ends, however many operations failed, then the result names the models first and then
the file of every flavor, in the order in which they were asked for; each of these files has
the text that was made for it from the contracts that could be built; and every place that
none of the paths leads to has the bytes from before, or still none. -/
theorem generate_whole (config : Config) (profile : Profile) (place : PackagePlace)
    (names : List String) (api : Api) (before : FileTable) :
    (∀ report after,
      (generate .builtIn config profile place names api).Fails before (.reported report) after →
        after.files = before.files) ∧
    ∀ r after, (generate .builtIn config profile place names api).Leads before r after →
      r.paths = modelsPath place :: names.map (clientPath place) ∧
      (∃ cs models clients,
        (contracts config api.operations).result = .ok (cs, r.failures) ∧
        (ModelsFile.build config.override.useDates api.schemas cs).result = .ok models ∧
        List.Forall₂ (Makes profile config.hasGlobalMutator cs) names clients ∧
        List.Forall₂ (fun path text => after.readBytes path = .ok text.toUTF8.toList) r.paths
          (models.render :: clients.map (ClientFile.render profile))) ∧
      ∀ other, (∀ path ∈ r.paths, after.reach path ≠ .ok other) →
        after.contents? other = before.contents? other := by
  refine ⟨fun report after failed => ?_, fun r after run => ?_⟩
  · exact generate_fails (fun name _ f get => (Registry.builtIn_reportsNothing get).1) failed
  obtain ⟨made, cs, models, clients, folder, built, declared, each, paths, texts⟩ :=
    generate_writes run
  refine ⟨paths, ⟨cs, models, clients, built, declared, each, ?_⟩, fun other elsewhere => ?_⟩
  · rw [paths]
    refine List.forall₂_iff_zip.mpr ⟨?_, fun {path text} member => ?_⟩
    · simp [each.length_eq]
    · exact FileTable.readBytes_writeTexts texts (texts_agree each) _ member
  · have untouched : after.contents? other = made.contents? other := by
      refine FileTable.contents?_writeTexts texts fun entry member => ?_
      exact elsewhere _ (paths ▸ (List.of_mem_zip member).1)
    rw [untouched, FileTable.contents?, FileTable.makeFolder_eq_ok folder, FileTable.contents?]

/-- A schema that refers to something outside of the component schemas. -/
def foreignPet : Api :=
  ⟨[(.str "Pet", .map [(.str "$ref", .str "#/definitions/Pet")])], [plainSearch]⟩

/-- Files with an earlier package, and with notes beside it. -/
def earlierFiles : FileTable :=
  ⟨[], [(["out", "api", "model.ts"], [47]), (["out", "api", "notes.md"], [35])], []⟩

theorem generate_whole_earlierFiles :
    (∃ report after, (generate .builtIn {} ⟨true, true⟩ ⟨"api", .ofText "/out"⟩ ["axios", "swr"]
        foreignPet).Fails earlierFiles (.reported report) after ∧
      after.files = earlierFiles.files) ∧
    ∃ r after, (generate .builtIn {} ⟨true, true⟩ ⟨"api", .ofText "/out"⟩ ["swr", "axios"]
        ⟨[], [bareSearch, plainSearch]⟩).Leads earlierFiles r after ∧
      r.paths.map Path.text = ["/out/api/model.ts", "/out/api/swr.ts", "/out/api/axios.ts"] ∧
      (∀ path ∈ r.paths, (after.readBytes path).isOk = true) ∧
      after.contents? ["out", "api", "notes.md"] = some [35] := by
  have reported : ((generate .builtIn {} ⟨true, true⟩ ⟨"api", .ofText "/out"⟩
      ["axios", "swr"] foreignPet).run earlierFiles).2.result.isReported = true := by
    decide +kernel
  have ends : ((generate .builtIn {} ⟨true, true⟩ ⟨"api", .ofText "/out"⟩ ["swr", "axios"]
      ⟨[], [bareSearch, plainSearch]⟩).run earlierFiles).2.result.isOk = true := by
    decide +kernel
  constructor
  · obtain ⟨report, failed⟩ := Attempt.exists_report reported
    exact ⟨report, _, ⟨failed, rfl⟩,
      (generate_whole {} ⟨true, true⟩ ⟨"api", .ofText "/out"⟩ _ foreignPet earlierFiles).1
        report _ ⟨failed, rfl⟩⟩
  · cases result : ((generate .builtIn {} ⟨true, true⟩ ⟨"api", .ofText "/out"⟩ ["swr", "axios"]
        ⟨[], [bareSearch, plainSearch]⟩).run earlierFiles).2.result with
    | error e =>
        rw [result] at ends
        cases ends
    | ok r =>
        obtain ⟨paths, ⟨cs, models, clients, -, -, -, texts⟩, untouched⟩ :=
          (generate_whole {} ⟨true, true⟩ ⟨"api", .ofText "/out"⟩ _ _ earlierFiles).2
            r _ ⟨result, rfl⟩
        refine ⟨r, _, ⟨result, rfl⟩, ?_, fun path member => ?_, (untouched _ ?_).trans (by decide)⟩
        · rw [paths]
          decide +kernel
        · obtain ⟨text, -, read⟩ := exists_of_mem_right texts.flip member
          rw [read]
          rfl
        · intro path member leads
          have named : ∃ folder file, ["out", "api", "notes.md"] = folder ++ [file] ∧
              file ∈ ["model.ts", "swr.ts", "axios.ts"] := by
            rw [paths] at member
            simp only [List.map_cons, List.map_nil, List.mem_cons, List.not_mem_nil, or_false]
              at member
            rcases member with rfl | rfl | rfl
            · obtain ⟨folder, same⟩ := modelsPath_leads leads
              exact ⟨folder, _, same, by decide⟩
            · obtain ⟨folder, same, -⟩ := clientPath_leads (f := Flavor.swr ⟨true, true⟩) rfl leads
              exact ⟨folder, _, same, by decide⟩
            · obtain ⟨folder, same, -⟩ :=
                clientPath_leads (f := Flavor.axios ⟨true, true⟩) rfl leads
              exact ⟨folder, _, same, by decide⟩
          obtain ⟨folder, file, same, listed⟩ := named
          obtain rfl : "notes.md" = file := by
            simpa using congrArg List.getLast? same
          exact absurd listed (by decide)

end Package

end ClientForge
