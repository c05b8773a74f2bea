/-
# ClientForge.Proofs.CommandLine.Outcome -- how a run of the command ends

A run whose arguments are accepted either has an outcome or hands a failure on.  The outcome says
what happened: its exit code is zero exactly if every flavor that was asked for has code for every
operation of the document (`Succeeds`), and everything that failed has its line (`Prints`).

Failures are handed on where the command has no message to end with (`IsHandedOn`): a fault of the
file system other than a missing file, or a value of the wrong shape.  `Escapes` names the places
that such a failure can come from, stage by stage.  A folder in place of the document is one of them
(`run_escapes`).
-/
import ClientForge.CommandLine.Run
import ClientForge.Proofs.Client.Refusals
import ClientForge.Proofs.Config.Loading
import ClientForge.Proofs.Package.Failures
import ClientForge.Proofs.Reference.Failures

namespace ClientForge

set_option autoImplicit false

open Attempt (FailsOnly)
open Files
open Resolver (Sources Unresolved)
open Yaml (HasEscape)

/-! ## Offers -/

namespace Registry

/-- Every flavor was there before, or is one of those that are offered. -/
def Extends (r before : Registry) (offers : List FlavorOffer) : Prop :=
  ∀ name maker, r.find? name = some maker →
    before.find? name = some maker ∨ ∃ offer ∈ offers, offer.maker = .ok maker

/-- Whatever is offered is loaded or passed over. -/
theorem exists_load (r : Registry) (offers : List FlavorOffer) :
    ∃ loaded names, (r.load offers).result = .ok (loaded, names) ∧ loaded.Extends r offers := by
  induction offers generalizing r with
  | nil => exact ⟨r, [], rfl, fun name maker found => Or.inl found⟩
  | cons offer rest ih =>
      cases given : offer.maker with
      | error reason =>
          obtain ⟨loaded, names, run, origin⟩ := ih r
          refine ⟨loaded, names, ?_, fun name maker found => (origin name maker found).imp_right ?_⟩
          · rw [load, given]
            exact run
          · rintro ⟨other, member, same⟩
            exact ⟨other, List.mem_cons_of_mem _ member, same⟩
      | ok own =>
          obtain ⟨loaded, names, run, origin⟩ := ih (r.insert offer.name own)
          have registered : (r.register offer.name own).result = .ok (r.insert offer.name own) := by
            unfold register
            split <;> rfl
          refine ⟨loaded, offer.name :: names, ?_, fun name maker found => ?_⟩
          · rw [load, given]
            dsimp only
            rw [Traced.bind_ok registered, Traced.bind_ok rfl, Traced.bind_ok run]
            rfl
          · rcases origin name maker found with old | ⟨other, member, same⟩
            · rw [find?_insert] at old
              split at old
              · cases old
                exact Or.inr ⟨offer, List.mem_cons_self, given⟩
              · exact Or.inl old
            · exact Or.inr ⟨other, List.mem_cons_of_mem _ member, same⟩

/-- A flavor of the registry comes with the generator, or somebody offers it. -/
theorem get_origin {offers : List FlavorOffer} {r : Registry} {name : String} {profile : Profile}
    {f : Flavor} (known : r.Extends builtIn offers) (found : r.get name profile = .ok f) :
    builtIn.get name profile = .ok f ∨
      ∃ offer ∈ offers, ∃ maker, offer.maker = .ok maker ∧ f = maker profile := by
  unfold get at found
  split at found
  · rename_i maker listed
    cases found
    rcases known name maker listed with own | ⟨offer, member, offered⟩
    · left
      rw [get, own]
    · exact Or.inr ⟨offer, member, maker, offered, rfl⟩
  · cases found

end Registry

namespace CommandLine

/-! ## Failures that are handed on -/

/-- There is no message to end the command with. -/
def IsHandedOn (e : Failure) : Prop := endingMessage? e = none

theorem isHandedOn_iff {e : Failure} :
    IsHandedOn e ↔ e = .illShaped ∨ ∃ fault path, fault ≠ .missing ∧ e = .file fault path := by
  unfold IsHandedOn
  constructor
  · intro silent
    cases e with
    | file fault path =>
        refine Or.inr ⟨fault, path, ?_, rfl⟩
        rintro rfl
        cases silent
    | illShaped => exact Or.inl rfl
    | _ => cases silent
  · rintro (rfl | ⟨fault, path, present, rfl⟩)
    · rfl
    · cases fault with
      | missing => exact absurd rfl present
      | _ => rfl

/-- A failure that is handed on has one of the reasons. -/
def OnlyFor (reasons : Failure → Prop) (e : Failure) : Prop := IsHandedOn e → reasons e

/-- Trying to read the file ends with a fault other than that it is missing, or with a text that has
an escape whose number is too high. -/
inductive Trips (files : FileTable) (path : Path) : Failure → Prop
  | fault {fault : FileFault} (failed : files.readBytes path = .error (.file fault path.text))
      (present : fault ≠ .missing) : Trips files path (.file fault path.text)
  | escape {text : String} (found : files.readText path = .ok text)
      (escape : HasEscape 0x80000000 text.toList) : Trips files path .illShaped

section Reading

variable {files : FileTable} {path : Path} {ending text : String} {e : Failure}

theorem unread_escapes (unread : Unread ending text e) (handedOn : IsHandedOn e) :
    e = .illShaped ∧ HasEscape 0x80000000 text.toList := by
  cases unread with
  | yaml refuses =>
      cases refuses with
      | invalid => cases handedOn
      | character escape => cases handedOn
      | number escape => exact ⟨rfl, escape⟩
      | scalar _ _ _ unmeant => cases unmeant <;> cases handedOn
  | number => cases handedOn

theorem noDocument_trips (noDocument : files.NoDocument path e) (handedOn : IsHandedOn e) :
    Trips files path e := by
  cases noDocument with
  | null => cases handedOn
  | @file fault failed =>
      refine .fault failed ?_
      rintro rfl
      cases handedOn
  | bytes => cases handedOn
  | text found unread =>
      obtain ⟨rfl, escape⟩ := unread_escapes unread handedOn
      exact .escape found escape

end Reading

/-! ## Plans -/

/-- Everything that a package is made from. -/
structure Plan where
  config : Config
  profile : Profile
  api : Api
  flavors : List String
  place : PackagePlace

/-- Write the package. -/
def Plan.write (registry : Registry) (plan : Plan) : Filing PackageResult :=
  Package.generate registry plan.config plan.profile plan.place plan.flavors plan.api

section Runs

variable {offers : List FlavorOffer} {registry : Registry} {pages : List (String × String)}
  {a : Arguments} {files after : FileTable} {plan : Plan} {r : PackageResult}

/-- The command line asks for this: every part of it could be read. -/
structure AsksFor (pages : List (String × String)) (a : Arguments) (files : FileTable)
    (plan : Plan) : Prop where
  config : config files a = .ok plan.config
  profile : profile files a = .ok plan.profile
  document : ∃ document,
    (Document.load ⟨files, pages⟩ (.location a.spec) none).result = .ok document ∧
      Api.ofDocument document = .ok plan.api
  flavors : flavors a = .ok plan.flavors
  place : packagePlace a = .ok plan.place

theorem AsksFor.unique {other : Plan} (asksFor : AsksFor pages a files plan)
    (again : AsksFor pages a files other) : plan = other := by
  obtain ⟨config, profile, ⟨document, loaded, described⟩, flavors, place⟩ := asksFor
  obtain ⟨config', profile', ⟨document', loaded', described'⟩, flavors', place'⟩ := again
  cases plan
  cases other
  cases config.symm.trans config'
  cases profile.symm.trans profile'
  cases loaded.symm.trans loaded'
  cases described.symm.trans described'
  cases flavors.symm.trans flavors'
  cases place.symm.trans place'
  rfl

/-- Somebody who asks for no flavor asks for one. -/
theorem AsksFor.flavors_ne_nil (asksFor : AsksFor pages a files plan) : plan.flavors ≠ [] := by
  have flavors := asksFor.flavors
  unfold CommandLine.flavors at flavors
  split at flavors
  · rw [← Except.ok.inj flavors]
    exact List.cons_ne_nil _ _
  · rename_i given
    have each := Attempt.mapM_eq_ok flavors
    intro none
    rw [none] at each
    exact given (List.isEmpty_iff.mpr (List.forall₂_nil_right_iff.mp each))

/-- The settings of a plan were read from some map. -/
theorem AsksFor.exists_ofValue (asksFor : AsksFor pages a files plan) :
    ∃ data, Config.ofValue data = .ok plan.config := by
  have config := asksFor.config
  unfold CommandLine.config at config
  split at config
  · rcases Config.load_eq_ok config with ⟨-, default⟩ | ⟨entries, -, read⟩
    · rw [default]
      exact ⟨.map [], rfl⟩
    · exact ⟨_, read⟩
  · rw [← Except.ok.inj config]
    exact ⟨.map [], rfl⟩

/-! ## The stages -/

/-- Why a failure is handed on: a switch left a gap, a file trips the reader, a part of the document
has the wrong shape or type, what somebody offers fails, or the output cannot be written to. -/
inductive Escapes (offers : List FlavorOffer) (registry : Registry) (pages : List (String × String))
    (a : Arguments) (files : FileTable) : Failure → Prop
  | settings {path : Path} {text : String} (given : a.config = some path)
      (found : files.readText (.ofText path.text) = .ok text)
      (escape : HasEscape 0x80000000 text.toList) :
      Escapes offers registry pages a files .illShaped
  | page {text : String} (found : pages.lookup a.spec = some text)
      (escape : HasEscape 0x80000000 text.toList) : Escapes offers registry pages a files .illShaped
  | spec {e : Failure} (onDisk : Address.isWeb a.spec = .ok false)
      (trips : Trips files (.ofText a.spec) e) : Escapes offers registry pages a files e
  | reference {value : Value} {base : Option Path} {place : Path}
      {reference address fragment : String} {e : Failure}
      (read : Document.readOrigin ⟨files, pages⟩ (.location a.spec) none = .ok (value, base))
      (comesBy : (Sources.within files value).ComesBy (base.getD ⟨false, []⟩) place reference)
      (split : Address.withoutFragment reference = .ok (address, fragment))
      (trips : Trips files (.ofPlace ((place.join (.ofText address)).place files.workdir)) e) :
      Escapes offers registry pages a files e
  | document {document : Value}
      (loaded : (Document.load ⟨files, pages⟩ (.location a.spec) none).result = .ok document)
      (noDescription : ¬ Api.IsDescription document) :
      Escapes offers registry pages a files .illShaped
  | gap (missing : a.output = none ∨ a.package = none ∨ none ∈ a.flavors) :
      Escapes offers registry pages a files .illShaped
  | output {plan : Plan} {flavors : List Flavor} {e : Failure}
      (asksFor : AsksFor pages a files plan)
      (found : plan.flavors.mapM (fun name => registry.get name plan.profile) = .ok flavors)
      (unwritable : ¬ Package.Writable files plan.place flavors) :
      Escapes offers registry pages a files e
  | operation {plan : Plan} {op : Operation} {e : Failure} (asksFor : AsksFor pages a files plan)
      (member : op ∈ plan.api.operations) (illTyped : ¬ op.WellTyped) :
      Escapes offers registry pages a files e
  | schema {plan : Plan} {entry : Scalar × Value} {e : Failure}
      (asksFor : AsksFor pages a files plan) (member : entry ∈ plan.api.schemas)
      (noComponent : ¬ Model.IsComponent entry) : Escapes offers registry pages a files e
  | form {plan : Plan} {op : Operation} {e : Failure} (asksFor : AsksFor pages a files plan)
      (member : op ∈ plan.api.operations) (sends : op.SendsTypeList) :
      Escapes offers registry pages a files e
  | offer {plan : Plan} {offer : FlavorOffer} {maker : FlavorMaker} {c : Contract} {e : Failure}
      (asksFor : AsksFor pages a files plan) (member : offer ∈ offers)
      (offered : offer.maker = .ok maker)
      (failed : ((maker plan.profile).client c).result = .error e) :
      Escapes offers registry pages a files e

theorem config_failsOnly :
    (config files a).FailsOnly (OnlyFor (Escapes offers registry pages a files)) := by
  unfold config
  split
  · rename_i path given
    refine (Config.load_failsOnly files path.text).mono fun e reason handedOn => ?_
    rcases reason with ⟨fault, rfl⟩ | escapes
    · cases handedOn
    · cases escapes with
      | null => cases handedOn
      | bytes => cases handedOn
      | text found unread =>
          obtain ⟨rfl, escape⟩ := unread_escapes unread handedOn
          exact .settings given found escape
  · exact .ok _

/-- A profile that cannot be read ends the command with a message. -/
theorem profile_failsOnly : (profile files a).FailsOnly fun e => ¬ IsHandedOn e := by
  have part (digits : List Char) :
      (Profile.versionPart digits).FailsOnly fun e => ¬ IsHandedOn e := by
    unfold Profile.versionPart
    cases Text.integer (String.ofList digits) with
    | ok n => exact .ok n
    | error fault => exact .error nofun
  have version (text : String) :
      (Profile.ofVersionText text).FailsOnly fun e => ¬ IsHandedOn e := by
    unfold Profile.ofVersionText
    split
    · exact .bind (part _) fun _ _ => .bind (part _) fun _ _ => .ok _
    · exact .bind (part _) fun _ _ => .ok _
    · exact .bind (part _) fun _ _ => .ok _
  have settings (profile : Profile) (path : String) (value : Value) :
      (profile.withSettings path value).FailsOnly fun e => ¬ IsHandedOn e := by
    unfold Profile.withSettings
    split
    · split
      · exact .ok _
      · exact .error nofun
    · exact .ok _
  have refined (profile : Profile) (path : String) :
      (profile.withSettingsFile files path).FailsOnly fun e => ¬ IsHandedOn e := by
    unfold Profile.withSettingsFile
    split
    · exact .error nofun
    · rename_i failure noFile failed
      refine .error fun handedOn => ?_
      cases FileTable.readText_failsOnly failure failed with
      | null => cases handedOn
      | file => exact noFile _ _ rfl
      | bytes => cases handedOn
      | text found =>
          rw [failed] at found
          cases found
    · split
      · exact .error nofun
      · exact .error nofun
      · exact settings _ _ _
  unfold CommandLine.profile
  cases a.tsconfig with
  | none =>
      dsimp only
      split
      · exact .bind (version _) fun _ _ => .ok _
      · exact .bind (.error nofun) fun _ _ => .ok _
  | some path =>
      dsimp only
      split
      · exact .bind (version _) fun _ _ => refined _ _
      · exact .bind (.error nofun) fun _ _ => refined _ _

theorem load_failsOnly :
    (Document.load ⟨files, pages⟩ (.location a.spec) none).result.FailsOnly
      (OnlyFor (Escapes offers registry pages a files)) := by
  have address {α : Type} {x : Attempt α} (fails : x.FailsOnly Address.IsBad) :
      x.FailsOnly (OnlyFor (Escapes offers registry pages a files)) := by
    refine fails.mono ?_
    rintro _ ⟨fault, rfl⟩ handedOn
    cases handedOn
  have isWeb : (Address.isWeb a.spec).FailsOnly Address.IsBad :=
    .bind (Address.ofText_failsOnly _) fun _ _ => .ok _
  have ending : (Address.extension a.spec).FailsOnly Address.IsBad := by
    unfold Address.extension
    refine .bind (Address.ofText_failsOnly _) fun _ _ => ?_
    split
    · exact .ok _
    · exact .ok _
  have origin : (Document.readOrigin ⟨files, pages⟩ (.location a.spec) none).FailsOnly
      (OnlyFor (Escapes offers registry pages a files)) := by
    refine .bind (address isWeb) fun web scheme => ?_
    cases web with
    | true =>
        unfold Document.fetch
        dsimp only
        rw [if_pos rfl]
        cases found : pages.lookup a.spec with
        | none => exact .error fun handedOn => by cases handedOn
        | some text =>
            refine .bind (.ok text) fun _ same => ?_
            cases same
            refine .bind (address ending) fun ending _ => .bind ?_ fun _ _ => .ok _
            refine (parseStructured_failsOnly ending text).mono fun e unread handedOn => ?_
            obtain ⟨rfl, escape⟩ := unread_escapes unread handedOn
            exact .page found escape
    | false =>
        rw [if_neg Bool.false_ne_true]
        refine .bind (FileTable.readStructured_failsOnly.mono fun e noDocument handedOn => ?_)
          fun _ _ => .ok _
        exact .spec scheme (noDocument_trips noDocument handedOn)
  have version (value : Value) : (Document.version value).FailsOnly
      (OnlyFor (Escapes offers registry pages a files)) := by
    unfold Document.version
    repeat' split
    all_goals first
      | exact .ok _
      | exact .error fun handedOn => by cases handedOn
  refine Traced.bind_failsOnly origin fun entry read => ?_
  obtain ⟨value, base⟩ := entry
  refine Traced.bind_failsOnly (version value) fun _ _ => ?_
  refine Traced.bind_failsOnly (.ok _) fun _ _ => ?_
  refine FailsOnly.mono (Resolver.resolve_failsOnly files value base) ?_
  intro e unresolved handedOn
  cases unresolved with
  | reported report => cases handedOn
  | address => cases handedOn
  | null => cases handedOn
  | file comesBy split noDocument =>
      exact .reference read comesBy split (noDocument_trips noDocument handedOn)

theorem flavors_failsOnly : (flavors a).FailsOnly fun e => e = .illShaped ∧ none ∈ a.flavors := by
  unfold flavors
  split
  · exact .ok _
  · refine .mapM fun flavor member => ?_
    cases flavor with
    | none => exact .error ⟨rfl, member⟩
    | some name => exact .ok name

theorem packagePlace_failsOnly :
    (packagePlace a).FailsOnly fun e =>
      e = .illShaped ∧ (a.output = none ∨ a.package = none) := by
  unfold packagePlace
  refine .bind ?_ fun _ _ => .bind ?_ fun _ _ => .ok _
  · cases given : a.package with
    | none => exact .error ⟨rfl, Or.inr rfl⟩
    | some name => exact .ok name
  · cases given : a.output with
    | none => exact .error ⟨rfl, Or.inl rfl⟩
    | some path => exact .ok path

/-- A package that is not written either ends the command with a message, or there is a reason. -/
theorem write_escapes {e : Failure} (asksFor : AsksFor pages a files plan)
    (offered : registry.Extends .builtIn offers)
    (failed : (plan.write registry).Fails files e after) (handedOn : IsHandedOn e) :
    Escapes offers registry pages a files e := by
  obtain ⟨data, read⟩ := asksFor.exists_ofValue
  cases Package.generate_unwritten failed with
  | reported report => cases handedOn
  | output found unwritable => exact .output asksFor found unwritable
  | operation member failed unreported =>
      refine .operation asksFor member fun typed => ?_
      obtain ⟨report, rfl⟩ := Config.contractFor_reports read typed e failed
      exact unreported report rfl
  | schema member noComponent => exact .schema asksFor member noComponent
  | @client name f op c _ listed found member built failed =>
      rcases Registry.get_origin offered found with own | ⟨offer, among, maker, made, rfl⟩
      · by_cases typed : op.WellTyped
        · obtain ⟨o, -, contract⟩ := Config.contractFor_eq_ok built
          exact .form asksFor member (Registry.builtIn_failsOnly_list own typed contract e failed)
        · exact .operation asksFor member typed
      · exact .offer asksFor among made failed

/-! ## Runs -/

theorem perform_leads_iff :
    (perform registry pages a).Leads files r after ↔
      ∃ plan, AsksFor pages a files plan ∧ (plan.write registry).Leads files r after := by
  unfold perform Plan.write
  simp only [Filing.leads_bind_iff, Filing.leads_inspect_iff, Filing.leads_attempt_iff]
  constructor
  · rintro ⟨⟨config, profile, api⟩, _, ⟨read, rfl⟩, flavors, _, ⟨named, rfl⟩, place, _,
      ⟨placed, rfl⟩, run⟩
    obtain ⟨_, readConfig, read⟩ := Traced.bind_eq_ok read
    obtain ⟨_, readProfile, read⟩ := Traced.bind_eq_ok read
    obtain ⟨document, loaded, read⟩ := Traced.bind_eq_ok read
    obtain ⟨_, described, read⟩ := Traced.bind_eq_ok read
    cases read
    exact ⟨⟨config, profile, api, flavors, place⟩,
      ⟨readConfig, readProfile, ⟨document, loaded, described⟩, named, placed⟩, run⟩
  · rintro ⟨plan, ⟨config, profile, ⟨document, loaded, described⟩, flavors, place⟩, run⟩
    refine ⟨(plan.config, plan.profile, plan.api), files, ⟨?_, rfl⟩, plan.flavors, files,
      ⟨flavors, rfl⟩, plan.place, files, ⟨place, rfl⟩, run⟩
    rw [Traced.bind_ok config, Traced.bind_ok profile, Traced.bind_ok loaded,
      Traced.bind_ok described]
    rfl

/-- What the command does fails with a message, or there is a reason. -/
theorem perform_escapes {e : Failure}
    (offered : registry.Extends .builtIn offers)
    (failed : (perform registry pages a).Fails files e after) (handedOn : IsHandedOn e) :
    Escapes offers registry pages a files e := by
  unfold perform at failed
  simp only [Filing.fails_bind_iff, Filing.fails_inspect_iff, Filing.leads_inspect_iff,
    Filing.fails_attempt_iff, Filing.leads_attempt_iff] at failed
  rcases failed with ⟨unread, -⟩ | ⟨⟨config, profile, api⟩, _, ⟨read, rfl⟩, failed⟩
  · rcases Traced.bind_eq_error unread with unread | ⟨_, -, unread⟩
    · exact config_failsOnly e unread handedOn
    rcases Traced.bind_eq_error unread with unread | ⟨_, -, unread⟩
    · exact absurd handedOn (profile_failsOnly e unread)
    rcases Traced.bind_eq_error unread with unread | ⟨document, loaded, unread⟩
    · exact load_failsOnly e unread handedOn
    rcases Traced.bind_eq_error unread with unread | ⟨_, -, ⟨⟩⟩
    obtain ⟨rfl, noDescription⟩ := Api.ofDocument_failsOnly document e unread
    exact .document loaded noDescription
  obtain ⟨_, readConfig, read⟩ := Traced.bind_eq_ok read
  obtain ⟨_, readProfile, read⟩ := Traced.bind_eq_ok read
  obtain ⟨document, loaded, read⟩ := Traced.bind_eq_ok read
  obtain ⟨_, described, read⟩ := Traced.bind_eq_ok read
  cases read
  rcases failed with ⟨gap, -⟩ | ⟨flavors, _, ⟨named, rfl⟩, failed⟩
  · obtain ⟨rfl, missing⟩ := flavors_failsOnly e gap
    exact .gap (Or.inr (Or.inr missing))
  rcases failed with ⟨gap, -⟩ | ⟨place, _, ⟨placed, rfl⟩, failed⟩
  · obtain ⟨rfl, missing⟩ := packagePlace_failsOnly e gap
    exact .gap (missing.imp_right Or.inl)
  have asksFor : AsksFor pages a files ⟨config, profile, api, flavors, place⟩ :=
    ⟨readConfig, readProfile, ⟨document, loaded, described⟩, named, placed⟩
  exact write_escapes asksFor offered failed handedOn

/-- Every flavor that is asked for has code for every operation of the document. -/
def Succeeds (registry : Registry) (pages : List (String × String)) (a : Arguments)
    (files : FileTable) : Prop :=
  ∃ plan, AsksFor pages a files plan ∧
    (∃ r after, (plan.write registry).Leads files r after) ∧
    ∀ op ∈ plan.api.operations, ∀ name ∈ plan.flavors,
      Package.Generates registry plan.config plan.profile name op

/-- What the command prints, and the lines for its errors: if there is a package, its paths and a
line for everything that is missing in it, otherwise a line for the failure that there is none. -/
inductive Prints (registry : Registry) (pages : List (String × String)) (a : Arguments)
    (files : FileTable) : List String → List String → Prop
  | package {plan : Plan} {r : PackageResult} {after : FileTable} {early late : List Report}
      (asksFor : AsksFor pages a files plan) (written : (plan.write registry).Leads files r after)
      (withoutContract : List.Forall₂
        (fun op report => (plan.config.contractFor op).result = .error (.reported report))
        (plan.api.operations.filter fun op => !plan.config.builds op) early)
      (withoutCode : List.Forall₂ (Package.RaisedIn registry plan.config plan.profile)
        (plan.flavors.flatMap fun name =>
          (plan.api.operations.filter
            (Package.refuses registry plan.config plan.profile name)).map fun op => (name, op))
        late) :
      Prints registry pages a files (r.paths.map Path.text)
        ((early ++ late).map fun report => errorLine report.text)
  | failure {e : Failure} {after : FileTable} {message : String}
      (failed : (perform registry pages a).Fails files e after)
      (worded : endingMessage? e = some message) :
      Prints registry pages a files [] [errorLine message]

theorem succeeds_iff (run : (perform registry pages a).Leads files r after) :
    Succeeds registry pages a files ↔ r.complete = true := by
  obtain ⟨plan, asksFor, written⟩ := perform_leads_iff.mp run
  have complete := Package.complete_iff asksFor.flavors_ne_nil written
  constructor
  · rintro ⟨other, again, -, each⟩
    cases asksFor.unique again
    exact complete.mpr each
  · intro all
    exact ⟨plan, asksFor, ⟨r, after, written⟩, complete.mp all⟩

theorem run_of_accepted {names arguments : List String}
    (loaded : (Registry.builtIn.load offers).result = .ok (registry, names))
    (read : Arguments.read registry.available arguments = .ok a) :
    (run offers pages arguments files).2 =
      outcome (earlyLines (Registry.builtIn.load offers).log ++
          logLines a.verbose ((perform registry pages a).run files).2.log)
        ((perform registry pages a).run files).2.result := by
  unfold run
  dsimp only
  rw [loaded]
  dsimp only
  rw [read]

end Runs

/-- Where there is a document there is a package, and where there is none there is a line. -/
example :
    let files : FileTable :=
      ⟨[], [(["spec.json"], "\x7b\"openapi\": \"3.0.0\"\x7d".toUTF8.toList)], []⟩
    (run [] [] ["spec.json", "-o", "out"] files).2 =
        .ok (.ended 0 ["out/api/model.ts", "out/api/swr.ts"] []) ∧
      (run [] [] ["other.json", "-o", "out"] files).2 =
        .ok (.ended 1 [] ["error: [Errno 2] No such file or directory: 'other.json'"]) := by
  decide +kernel

/-- A folder with one file in it. -/
def folderOnly : FileTable := ⟨[], [(["d", "x.json"], "\x7b\x7d".toUTF8.toList)], []⟩

end CommandLine

end ClientForge
