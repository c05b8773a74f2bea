/-
# ClientForge.Proofs.Reference.Failures -- why a document is not resolved

Resolving a document fails for a reason that is found in a reference, and only in one that the walk
over the document comes by (`Sources.ComesBy`): its address is none, or the file that it leads to
holds no document.  All other failures are reported (`resolve_failsOnly`).

The bound for expansions inside one another is no reason: since it is never reached, whatever is
done there can be replaced, here by a failure that is reported (`expand_iterate`).
-/
import ClientForge.Proofs.Files.Reading
import ClientForge.Proofs.Reference.Recursion
import ClientForge.Proofs.Reference.Termination

namespace ClientForge

set_option autoImplicit false

open Attempt (FailsOnly)
open Files

/-! ## Addresses -/

namespace Address

/-- The failure is that of an address. -/
def IsBad (e : Failure) : Prop := ∃ fault, e = .badAddress fault

theorem bad {α : Type} (fault : AddressFault) :
    FailsOnly IsBad (.error (.badAddress fault) : Attempt α) := .error ⟨fault, rfl⟩

theorem checkNumeric_failsOnly (s : List Char) : (checkNumeric s).FailsOnly IsBad := by
  unfold checkNumeric
  repeat' split
  all_goals first
    | exact .ok _
    | exact bad _

theorem checkBrackets_failsOnly (host : List Char) : (checkBrackets host).FailsOnly IsBad := by
  unfold checkBrackets
  dsimp only
  split
  · split
    · exact bad _
    · exact checkNumeric_failsOnly _
  · exact checkNumeric_failsOnly _

theorem checkHost_failsOnly (host : List Char) : (checkHost host).FailsOnly IsBad := by
  have delimiters : FailsOnly IsBad
      (if host.any hidesDelimiter = true then
        .error (.badAddress (.hiddenDelimiter (String.ofList host)))
      else pure PUnit.unit : Attempt PUnit) := by
    split
    · exact bad _
    · exact .ok _
  unfold checkHost
  dsimp only
  split
  · exact .bind (bad _) fun _ _ => delimiters
  · split
    · exact .bind (checkBrackets_failsOnly host) fun _ _ => delimiters
    · exact delimiters

theorem ofText_failsOnly (text : String) : (ofText text).FailsOnly IsBad :=
  .bind (checkHost_failsOnly _) fun _ _ => .ok _

theorem withoutFragment_failsOnly (reference : String) :
    (withoutFragment reference).FailsOnly IsBad := by
  unfold withoutFragment
  split
  · exact .bind (ofText_failsOnly reference) fun _ _ => .ok _
  · exact .ok _

end Address

namespace Resolver

/-! ## Reasons -/

/-- The walk comes by a map that refers to this, seen from this folder. -/
def Sources.ComesBy (sources : Sources) (start base : Path) (reference : String) : Prop :=
  ∃ entries, sources.Visited start base (.map entries) ∧
    Entries.get? "$ref" entries = some (.str reference)

/-- Why a document is not resolved: there is a report, or a reference is the reason. -/
inductive Unresolved (files : FileTable) (document : Value) (start : Path) : Failure → Prop
  | reported (report : Report) : Unresolved files document start (.reported report)
  | address {base : Path} {reference : String} {fault : AddressFault}
      (comesBy : (Sources.within files document).ComesBy start base reference)
      (bad : Address.withoutFragment reference = .error (.badAddress fault)) :
      Unresolved files document start (.badAddress fault)
  | null {base : Path} {reference address fragment : String}
      (comesBy : (Sources.within files document).ComesBy start base reference)
      (split : Address.withoutFragment reference = .ok (address, fragment))
      (there : (base.join (.ofText address)).hasNull = true) :
      Unresolved files document start .nullInPath
  | file {base : Path} {reference address fragment : String} {e : Failure}
      (comesBy : (Sources.within files document).ComesBy start base reference)
      (split : Address.withoutFragment reference = .ok (address, fragment))
      (noDocument : files.NoDocument
        (.ofPlace ((base.join (.ofText address)).place files.workdir)) e) :
      Unresolved files document start e

/-! ## Steps with reasons -/

/-- From a resolver that has read nothing but files, the step learns from the files, and it fails
only for one of the reasons. -/
structure Explains {α : Type} (files : FileTable) (document : Value) (reasons : Failure → Prop)
    (x : Expanding α) : Prop where
  grows : ∀ r, (Sources.within files document).Know files r → Extends files r (x r).2
  fails : ∀ r, (Sources.within files document).Know files r → FailsOnly reasons (x r).1

namespace Explains

variable {α β : Type} {files : FileTable} {document : Value} {reasons : Failure → Prop}

theorem pure (a : α) : Explains files document reasons (Pure.pure a) where
  grows r _ := .refl r
  fails _ _ := .ok a

theorem lift {x : Attempt α} (fails : x.FailsOnly reasons) :
    Explains files document reasons (liftM x) where
  grows r _ := .refl r
  fails _ _ := fails

theorem throw {e : Failure} (reason : reasons e) :
    Explains files document reasons (throw e : Expanding α) where
  grows r _ := .refl r
  fails _ _ := .error reason

theorem bind {x : Expanding α} {f : α → Expanding β} (first : Explains files document reasons x)
    (later : ∀ a r s, (Sources.within files document).Know files s → x r = (.ok a, s) →
      Explains files document reasons (f a)) :
    Explains files document reasons (x >>= f) where
  grows r know :=
    bind_extends (first.grows r know) fun a s run =>
      have known := know.after ((first.grows r know).of_run run)
      (later a r s known run).grows s known
  fails r know := by
    cases run : x r with
    | mk result s =>
        have known := know.after ((first.grows r know).of_run run)
        cases result with
        | error e =>
            rw [bind_error run]
            have failed := first.fails r know
            rw [run] at failed
            exact .error (failed e rfl)
        | ok a =>
            rw [bind_ok run]
            exact (later a r s known run).fails s known

theorem withActive {x : Expanding α} (reference : String)
    (inner : Explains files document reasons x) :
    Explains files document reasons (withActive reference x) where
  grows r know := by
    have grown := inner.grows _ (know.setActive (reference :: r.active))
    exact (Agrees.withActive reference ⟨rfl, grown⟩).grows
  fails r know := by
    rw [withActive_apply]
    exact inner.fails _ (know.setActive (reference :: r.active))

/-- What a step does may depend on the resolver. -/
theorem of_eq {x : Expanding α}
    (each : ∀ r, (Sources.within files document).Know files r →
      ∃ y, x r = y r ∧ Explains files document reasons y) :
    Explains files document reasons x where
  grows r know := by
    obtain ⟨y, same, explains⟩ := each r know
    rw [same]
    exact explains.grows r know
  fails r know := by
    obtain ⟨y, same, explains⟩ := each r know
    rw [same]
    exact explains.fails r know

end Explains

/-! ## Following a reference -/

section Walk

variable {files : FileTable} {document : Value} {start base : Path}

theorem partAt_failsOnly (part : Value) (fragment : String) :
    (partAt part fragment).FailsOnly (Unresolved files document start) := by
  unfold partAt
  split
  · exact .error (.reported _)
  · unfold Pointer.find
    repeat' split
    all_goals first
      | exact .ok _
      | exact .error (.reported _)

/-- A file is read or known, unless it holds no document. -/
theorem loadDocument_explains {place : Place} (up : ".." ∉ place)
    (noDocument : ∀ e, files.NoDocument (.ofPlace place) e → Unresolved files document start e) :
    Explains files document (Unresolved files document start) (loadDocument files place) where
  grows r _ := loadDocument_extends files up r
  fails r _ := by
    rw [loadDocument, bind_ok (get_apply r)]
    cases r.cache.lookup place with
    | some entries => exact .ok entries
    | none =>
        have read := lift_apply (files.readStructured (.ofPlace place)) r
        cases found : files.readStructured (.ofPlace place) with
        | error e =>
            rw [found] at read
            dsimp only
            rw [found, bind_error read]
            exact .error (noDocument e (FileTable.readStructured_failsOnly e found))
        | ok value =>
            rw [found] at read
            dsimp only
            rw [found, bind_ok read]
            cases value with
            | map entries => exact .ok entries
            | atom a => exact .error (.reported _)
            | list items => exact .error (.reported _)

theorem documentAt_explains {reference address fragment : String}
    (comesBy : (Sources.within files document).ComesBy start base reference)
    (split : Address.withoutFragment reference = .ok (address, fragment)) :
    Explains files document (Unresolved files document start) (documentAt files address base) := by
  unfold documentAt
  split
  · exact .of_eq fun r _ => ⟨pure (r.document, base), rfl, .pure _⟩
  · dsimp only
    split
    · rename_i null
      exact .throw (.null comesBy split null)
    · have loaded := loadDocument_explains (up_not_mem_place _ _) fun _ => .file comesBy split
      exact .bind loaded fun _ _ _ _ _ => .pure _

theorem target_explains {reference : String}
    (comesBy : (Sources.within files document).ComesBy start base reference) :
    Explains files document (Unresolved files document start) (target files reference base) := by
  have address : (Address.withoutFragment reference).FailsOnly
      (Unresolved files document start) := by
    intro e failed
    obtain ⟨fault, rfl⟩ := Address.withoutFragment_failsOnly reference e failed
    exact .address comesBy failed
  unfold target
  refine .bind (.lift address) fun cut r s _ run => ?_
  obtain ⟨split, -⟩ := lift_eq_ok run
  refine .bind (documentAt_explains comesBy split) fun found _ _ _ _ => ?_
  exact .bind (.lift (partAt_failsOnly _ _)) fun part _ _ _ _ => .pure _

/-! ## Walking -/

section Parts

variable {reasons : Failure → Prop} {openRef : String → Path → Expanding Value}

theorem expandItems_explains {items : List Value}
    (each : ∀ v ∈ items, Explains files document reasons (expand openRef base v)) :
    Explains files document reasons (expandItems openRef base items) := by
  induction items with
  | nil => exact .pure []
  | cons v rest ih =>
      obtain ⟨here, later⟩ := List.forall_mem_cons.mp each
      exact .bind here fun _ _ _ _ _ => .bind (ih later) fun _ _ _ _ _ => .pure _

theorem expandEntries_explains {entries : Entries}
    (each : ∀ entry ∈ entries, Explains files document reasons (expand openRef base entry.2)) :
    Explains files document reasons (expandEntries openRef base entries) := by
  induction entries with
  | nil => exact .pure []
  | cons entry rest ih =>
      obtain ⟨here, later⟩ := List.forall_mem_cons.mp each
      exact .bind here fun _ _ _ _ _ => .bind (ih later) fun _ _ _ _ _ => .pure _

theorem expandSiblings_explains {entries : Entries}
    (each : ∀ entry ∈ entries, Explains files document reasons (expand openRef base entry.2))
    (fields : Entries) :
    Explains files document reasons (expandSiblings openRef base fields entries) := by
  induction entries generalizing fields with
  | nil => exact .pure fields
  | cons entry rest ih =>
      obtain ⟨k, v⟩ := entry
      obtain ⟨here, later⟩ := List.forall_mem_cons.mp each
      rw [expandSiblings]
      split
      · exact ih later fields
      · exact .bind here fun _ _ _ _ _ => ih later _

theorem withSiblings_explains {entries : Entries} (reported : ∀ report, reasons (.reported report))
    (each : ∀ entry ∈ entries, Explains files document reasons (expand openRef base entry.2))
    (part : Value) : Explains files document reasons (withSiblings openRef base entries part) := by
  unfold withSiblings
  split
  · exact .pure part
  · split
    · exact .bind (expandSiblings_explains each _) fun _ _ _ _ _ => .pure _
    · exact .throw (reported _)

/-- Whatever opens references, a walk fails for its reasons, or there is a report. -/
theorem expand_explains (reported : ∀ report, reasons (.reported report)) (v : Value)
    (opened : ∀ reference, v.Mentions reference →
      Explains files document reasons (openRef reference base)) :
    Explains files document reasons (expand openRef base v) := by
  induction v with
  | atom a => exact .pure _
  | list items ih =>
      refine .bind (expandItems_explains fun v member => ?_) fun _ _ _ _ _ => .pure _
      exact ih v member fun reference mentions =>
        opened reference (mentions.whole (.item member .refl))
  | map entries ih =>
      have each : ∀ entry ∈ entries,
          Explains files document reasons (expand openRef base entry.2) := fun entry member =>
        ih entry member fun reference mentions =>
          opened reference (mentions.whole (.entry member .refl))
      cases refers : Entries.get? "$ref" entries with
      | none =>
          rw [expand_map_of_none _ _ refers]
          exact .bind (expandEntries_explains each) fun _ _ _ _ _ => .pure _
      | some v =>
          refine .of_eq fun r _ => ?_
          by_cases text : ∃ reference, v = .str reference
          · obtain ⟨reference, rfl⟩ := text
            by_cases active : reference ∈ r.active
            · exact ⟨_, expand_map_of_active _ _ refers active, .pure _⟩
            · refine ⟨_, expand_map_of_inactive _ _ refers active, ?_⟩
              exact .bind (opened reference ⟨entries, .refl, refers⟩) fun part _ _ _ _ =>
                withSiblings_explains reported each part
          · have other : ∀ s, v ≠ .str s := fun s same => text ⟨s, same⟩
            exact ⟨_, expand_map_of_other _ _ refers other, .throw (reported _)⟩

end Parts

/-- The walk comes by what is mentioned in a value that it comes by. -/
theorem Sources.ComesBy.of_mentions {sources : Sources} {v : Value} {reference : String}
    (visited : sources.Visited start base v) (mentions : v.Mentions reference) :
    sources.ComesBy start base reference := by
  obtain ⟨entries, part, refers⟩ := mentions
  exact ⟨entries, .part visited part, refers⟩

/-- Opening a reference over and over fails for a reason that one of the references gives, as long
as what is done at the bottom does. -/
theorem iterate_explains {last : String → Path → Expanding Value}
    (bottom : ∀ reference base, Explains files document (Unresolved files document start)
      (last reference base)) (n : Nat) {reference : String}
    (comesBy : (Sources.within files document).ComesBy start base reference) :
    Explains files document (Unresolved files document start)
      ((openOnce files)^[n] last reference base) := by
  induction n generalizing base reference with
  | zero => exact bottom reference base
  | succ n ih =>
      rw [Function.iterate_succ_apply']
      refine .bind (target_explains comesBy) fun found r s know run => .withActive reference ?_
      obtain ⟨part, inner⟩ := found
      obtain ⟨entries, visited, refers⟩ := comesBy
      have inside : (Sources.within files document).Visited start inner part :=
        .target visited refers (target_eq_ok run know)
      exact expand_explains .reported part fun other mentions => ih (.of_mentions inside mentions)

end Walk

/-- **A document is not resolved for a reason that is found in one of its references**, or there is
a report. -/
theorem resolve_failsOnly (files : FileTable) (document : Value) (base : Option Path) :
    FailsOnly (Unresolved files document (base.getD ⟨false, []⟩))
      (resolve files (.start document base)).1 := by
  have know : (Sources.within files document).Know files (.start document base) :=
    Sources.within_know (r := .start document base) rfl (.refl _)
  have bottom : ∀ reference base', Explains files document
      (Unresolved files document (base.getD ⟨false, []⟩))
      ((fun _ _ => throw (.of .documentNotObject) : String → Path → Expanding Value)
        reference base') := fun _ _ => .throw (.reported _)
  have walk := expand_explains .reported document fun reference mentions =>
    iterate_explains bottom ((start document base).depth files) (.of_mentions .root mentions)
  have run := expand_iterate files (start document base)
    (fun _ _ => throw (.of .documentNotObject)) le_rfl (base.getD ⟨false, []⟩)
  have fails := walk.fails _ know
  rwa [show expand _ _ document _ = _ from run] at fails

end Resolver

end ClientForge
