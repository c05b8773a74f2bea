/-
# ClientForge.Proofs.Reference.Replay -- resolving again without the files

What a resolution reads, the resolver knows from then on.  So the expansion that a successful
resolution derives (`expand_eq_ok`) is an expansion in the documents that are known at its
end.  A resolver that has these documents, and maybe more, gets to the same expansion, takes
every document from those that it knows and asks the files for nothing (`Expands.replay`).
Files that are written or deleted in between do not matter, as long as the document to be
resolved is the same.
-/
import ClientForge.Proofs.Reference.Inlining
import ClientForge.Proofs.Reference.Session

namespace ClientForge

set_option autoImplicit false

open Files

namespace Resolver

/-! ## Following references in what is known -/

/-- The resolver has the documents of the sources. -/
structure Sources.Held (sources : Sources) (files : FileTable) (r : Resolver) : Prop where
  root : sources.root = r.document
  workdir : sources.workdir = files.workdir
  cache : ∀ place entries, sources.document? place = some entries →
    r.cache.lookup place = some entries

section Held

variable {files : FileTable} {sources : Sources} {r : Resolver}

/-- The references being expanded are no documents. -/
theorem Sources.Held.setActive (held : sources.Held files r) (active : List String) :
    sources.Held files { r with active } :=
  ⟨held.root, held.workdir, held.cache⟩

/-- A document that is known is not read. -/
theorem loadDocument_of_known (files : FileTable) {place : Place} {entries : Entries}
    (known : r.cache.lookup place = some entries) :
    loadDocument files place r = (.ok entries, r) := by
  rw [loadDocument, bind_ok (get_apply r), known]
  rfl

theorem documentAt_of_held {address : String} {base inner : Path} {document : Value}
    (found : sources.documentOf? address base = some (document, inner))
    (held : sources.Held files r) :
    documentAt files address base r = (.ok (document, inner), r) := by
  unfold Sources.documentOf? at found
  unfold documentAt
  split at found
  · rename_i here
    cases found
    rw [if_pos here, held.root]
    rfl
  · rename_i elsewhere
    rw [if_neg elsewhere]
    dsimp only at found ⊢
    split at found
    · cases found
    · rename_i named
      obtain ⟨entries, stored, same⟩ := Option.map_eq_some_iff.mp found
      cases same
      rw [if_neg named, ← held.workdir]
      exact bind_ok (loadDocument_of_known files (held.cache _ _ stored)) _

/-- A resolver that has the documents of the sources follows references as they do, and
learns nothing. -/
theorem target_of_held {reference : String} {base inner : Path} {part : Value}
    (found : sources.target? reference base = some (part, inner))
    (held : sources.Held files r) :
    target files reference base r = (.ok (part, inner), r) := by
  simp only [Sources.target?, Option.bind_eq_bind, Option.bind_eq_some_iff, Prod.exists,
    toOption_eq_some_iff] at found
  obtain ⟨address, fragment, cut, document, folder, load, raw, pick, found⟩ := found
  cases found
  unfold target
  rw [cut]
  refine (bind_ok (lift_apply (.ok (address, fragment)) r) _).trans ?_
  refine (bind_ok (documentAt_of_held load held) _).trans ?_
  dsimp only
  rw [pick]
  rfl

/-- A reference whose part expands opens to the expansion. -/
theorem openFully_of_target {reference : String} {base inner : Path} {part w : Value}
    (found : target files reference base r = (.ok (part, inner), r))
    (expands : expand (openFully files) inner part { r with active := reference :: r.active } =
      (.ok w, { r with active := reference :: r.active })) :
    openFully files reference base r = (.ok w, r) := by
  rw [openFully_eq, openOnce]
  refine (bind_ok found _).trans ?_
  exact (withActive_apply reference _ r).trans (by rw [expands]; rfl)

/-! ## Expanding again -/

/-- A resolver that has the documents of the sources gets to every expansion in them, and
learns nothing. -/
theorem Expands.replay {base : Path} {active : List String} {v w : Value}
    (expands : Expands sources base active v w) (held : sources.Held files r)
    (same : r.active = active) : expand (openFully files) base v r = (.ok w, r) := by
  induction expands generalizing r with
  | atom a => rfl
  | list length _ ih =>
      rw [expand_list]
      refine bind_ok (expandItems_eq ?_) _
      exact List.forall₂_iff_zip.mpr ⟨length, fun member => ih _ _ member held same⟩
  | map free keys _ ih =>
      rw [expand_map_of_none _ _ free]
      refine bind_ok (expandEntries_eq ?_) _
      exact Entries.pointwise_iff.mpr
        ⟨keys, fun entry entry' member => ih _ _ member held same⟩
  | active refers active =>
      subst same
      exact expand_map_of_active _ _ refers active
  | alone refers inactive single found _ ih =>
      subst same
      rw [expand_map_of_inactive _ _ refers inactive]
      have opening := openFully_of_target (target_of_held found held)
        (ih (held.setActive _) rfl)
      refine (bind_ok opening _).trans ?_
      rw [withSiblings_single _ _ single]
      rfl
  | merged refers inactive several found _ keys _ ih each =>
      subst same
      rw [expand_map_of_inactive _ _ refers inactive]
      have opening := openFully_of_target (target_of_held found held)
        (ih (held.setActive _) rfl)
      refine (bind_ok opening _).trans ?_
      rw [withSiblings_map _ _ several]
      refine bind_ok (expandSiblings_eq _ ?_) _
      exact Entries.pointwise_iff.mpr
        ⟨keys, fun entry entry' member => each _ _ member held rfl⟩

end Held

/-- A resolution that succeeds can be had again from what is known at its end, whatever the
files have become. -/
theorem resolve_replay {files others : FileTable} {r s t : Resolver} {w : Value}
    (run : resolve files r = (.ok w, s)) (workdir : others.workdir = files.workdir)
    (document : t.document = r.document) (base : t.base = r.base) (active : t.active = r.active)
    (known : s.cache <+: t.cache) : resolve others t = (.ok w, t) := by
  have grown : Extends files r s := (resolve_extends files r).of_run run
  have expands : Expands (Sources.of files s) (r.base.getD ⟨false, []⟩) r.active r.document w :=
    expand_eq_ok run (Sources.know_of files s)
  have held : (Sources.of files s).Held others t := by
    refine ⟨grown.document.trans document.symm, workdir.symm, fun place entries stored => ?_⟩
    obtain ⟨later, same⟩ := known
    rw [← same, List.lookup_append]
    simp [show s.cache.lookup place = some entries from stored]
  rw [resolve_eq_expand (openFully_eq others), base, document]
  exact expands.replay held active

end Resolver

namespace Session

open Resolver

theorem run_base (s : Session) (history : List Event) :
    (s.run history).resolver.base = s.resolver.base :=
  s.run_keeps (I := fun r => r.base = s.resolver.base) history (fun _ _ same => same)
    (fun _ _ _ grown same => grown.base.trans same) rfl

theorem run_workdir (s : Session) (history : List Event) :
    (s.run history).files.workdir = s.files.workdir := by
  induction history generalizing s with
  | nil => rfl
  | cons e rest ih =>
      refine (ih (s.after e)).trans ?_
      cases e <;> rfl

/-- **A resolution that succeeds can be repeated.**  Whatever is written, deleted and resolved
afterwards: with the same document to resolve, a resolver gets to the same result again.  It
learns nothing by that, since no document that it needs was lost. -/
theorem resolve_again (s : Session) (later : List Event) {w : Value}
    (first : (resolve s.files s.resolver).1 = .ok w)
    (document : ((s.after .resolve).run later).resolver.document = s.resolver.document) :
    (s.after .resolve).resolver.cache <+: ((s.after .resolve).run later).resolver.cache ∧
      resolve ((s.after .resolve).run later).files ((s.after .resolve).run later).resolver =
        (.ok w, ((s.after .resolve).run later).resolver) := by
  have run : resolve s.files s.resolver = (.ok w, (s.after .resolve).resolver) :=
    Prod.ext first rfl
  have grown : Extends s.files s.resolver (s.after .resolve).resolver :=
    resolve_extends s.files s.resolver
  have known := (s.after .resolve).run_cache_grows later
  refine ⟨known, resolve_replay run ?_ document ?_ ?_ known⟩
  · exact (s.after .resolve).run_workdir later
  · exact ((s.after .resolve).run_base later).trans grown.base
  · exact ((s.after .resolve).run_idle later).trans grown.active

/-- The session of the note while its file holds an empty map. -/
def noteThere : Session := noteSession.after (.write ["work", "note.json"] [123, 125])

/-- The note becomes a list and is deleted, and another document is resolved in between. -/
def noteGone : List Event :=
  [.write ["work", "note.json"] [91, 93], .replace (.str "other"), .resolve,
    .replace noteSession.resolver.document, .delete ["work", "note.json"]]

theorem resolve_again_note :
    let t := (noteThere.after .resolve).run noteGone
    (∀ w, (resolve t.files noteThere.resolver).1 ≠ .ok w) ∧
      resolve t.files t.resolver = (.ok (.object [("note", .map [])]), t.resolver) := by
  have first : (resolve noteThere.files noteThere.resolver).1 =
      .ok (.object [("note", .map [])]) := rfl
  have known : noteThere.after .resolve = { noteThere with
      resolver := { noteThere.resolver with cache := [(["work", "note.json"], [])] } } := rfl
  have document : ((noteThere.after .resolve).run noteGone).resolver.document =
      noteThere.resolver.document := by
    rw [known]
    rfl
  refine ⟨fun w found => ?_, (resolve_again noteThere noteGone first document).2⟩
  rw [known] at found
  cases found

end Session

end ClientForge
