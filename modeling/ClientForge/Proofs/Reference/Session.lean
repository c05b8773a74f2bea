/-
# ClientForge.Proofs.Reference.Session -- a resolver among files that change

A resolver may be used for a long time: it resolves its document, is given another one and
resolves that, and in between the files around it are written and deleted.  `Session.run`
goes through such a history.  Some of its resolutions fail, at any depth of an expansion and
for any reason, and what they learnt stays.

What one event may do to the resolver is little: it replaces the document, or it learns
documents (`Resolver.Extends`).  So the documents that are known only get more, and each is
what its file held when it was first read; and the references being expanded are none when
nothing is resolved.  While something is resolved they are distinct, which is said by what
would not matter: whatever is done in place of an opening that would repeat one of them, the
run stays the same (`resolveWatched_eq`).
-/
import ClientForge.Proofs.Reference.Termination

namespace ClientForge

set_option autoImplicit false

open Files

namespace Resolver

/-! ## The references being expanded -/

/-- Open a reference where the references being expanded stay distinct with it; otherwise do
something else. -/
def watched (otherwise : Expanding Value) (openRef : String → Path → Expanding Value)
    (reference : String) (base : Path) : Expanding Value :=
  fun r =>
    if (reference :: r.active).Nodup then openRef reference base r else otherwise r

/-- What a reference expands to, like `openReference`, where every opening is watched. -/
def openWatched (files : FileTable) (otherwise : Expanding Value) :
    Nat → String → Path → Expanding Value
  | 0 => fun _ _ => throw .illShaped
  | depth + 1 => watched otherwise (openOnce files (openWatched files otherwise depth))

/-- Resolve a document like `resolve`, where every opening is watched. -/
def resolveWatched (files : FileTable) (otherwise : Expanding Value) : Expanding Value := do
  let r ← get
  expand (openWatched files otherwise (r.depth files)) (r.base.getD ⟨false, []⟩) r.document

section Watched

variable {files : FileTable} {reference : String} {base : Path} {r : Resolver}

theorem Agrees.watched {first second : String → Path → Expanding Value}
    (otherwise : Expanding Value) (distinct : r.active.Nodup) (inactive : reference ∉ r.active)
    (opened : Agrees files (first reference base) (second reference base) r) :
    Agrees files (first reference base) (watched otherwise second reference base) r := by
  have still : (reference :: r.active).Nodup := List.nodup_cons.mpr ⟨inactive, distinct⟩
  refine ⟨?_, opened.grows⟩
  rw [Resolver.watched, if_pos still]
  exact opened.same

theorem openWatched_agrees (files : FileTable) (otherwise : Expanding Value) (depth : Nat)
    (base : Path) (distinct : r.active.Nodup) (inactive : reference ∉ r.active) :
    Agrees files (openReference files depth reference base)
      (openWatched files otherwise depth reference base) r := by
  induction depth generalizing reference base r with
  | zero => exact .throw _
  | succ depth ih =>
      refine Agrees.watched otherwise distinct inactive ?_
      refine Agrees.bind ⟨rfl, target_extends files reference base r⟩ fun found s run => ?_
      have grown : Extends files r s := (target_extends files reference base r).of_run run
      -- The references being expanded are as they were when the part was found.
      have still : (reference :: s.active).Nodup := by
        rw [grown.active]
        exact List.nodup_cons.mpr ⟨inactive, distinct⟩
      have stable : ∀ t u, Extends files t u → t.active.Nodup → u.active.Nodup := by
        intro t u grown distinct
        rwa [grown.active]
      refine Agrees.withActive reference (expand_agrees stable found.1 ?_ _ still)
      exact fun inner _ base t distinct inactive => ih base distinct inactive

/-- A walk that starts with distinct references never repeats one: what is done in place of
opening it once more does not matter. -/
theorem expand_watched (files : FileTable) (otherwise : Expanding Value) (depth : Nat)
    (base : Path) (v : Value) (distinct : r.active.Nodup) :
    expand (openWatched files otherwise depth) base v r =
      expand (openReference files depth) base v r := by
  have stable : ∀ t u, Extends files t u → t.active.Nodup → u.active.Nodup := by
    intro t u grown distinct
    rwa [grown.active]
  refine (expand_agrees stable v ?_ r distinct).same.symm
  exact fun inner _ base t distinct inactive =>
    openWatched_agrees files otherwise depth base distinct inactive

theorem resolveWatched_eq (files : FileTable) (otherwise : Expanding Value)
    (distinct : r.active.Nodup) : resolveWatched files otherwise r = resolve files r :=
  expand_watched files otherwise (r.depth files) _ r.document distinct

end Watched

/-! ## The documents that are known -/

theorem resolve_extends (files : FileTable) (r : Resolver) :
    Extends files r (resolve files r).2 :=
  expand_extends (openReference_extends files (r.depth files)) _ _ _

namespace Extends

variable {files : FileTable} {r s : Resolver} {place : Place} {entries : Entries}

theorem cache_grows (grown : Extends files r s) : r.cache <+: s.cache := by
  refine grown.keeps (I := fun t => r.cache <+: t.cache) ?_ (List.prefix_refl _)
  intro t u learnt before
  cases learnt with
  | document _ _ _ => exact before.trans (List.prefix_append _ _)

/-- No place gets a second document. -/
theorem distinct (grown : Extends files r s) (first : (r.cache.map Prod.fst).Nodup) :
    (s.cache.map Prod.fst).Nodup := by
  refine grown.keeps (I := fun t => (t.cache.map Prod.fst).Nodup) ?_ first
  intro t u learnt first
  cases learnt with
  | document _ unknown _ =>
      rw [List.map_append, List.map_singleton, List.nodup_append]
      refine ⟨first, List.nodup_singleton _, ?_⟩
      intro key old other new same
      obtain ⟨entry, there, rfl⟩ := List.mem_map.mp old
      have different := List.lookup_eq_none_iff.mp unknown entry there
      simp [same, List.mem_singleton.mp new] at different

/-- A document is known from before, or it is new and what its file holds. -/
theorem of_mem (grown : Extends files r s) (member : (place, entries) ∈ s.cache) :
    (place, entries) ∈ r.cache ∨
      r.cache.lookup place = none ∧
        files.readStructured (.ofPlace place) = .ok (.map entries) := by
  induction grown with
  | refl => exact Or.inl member
  | tail before learnt ih =>
      cases learnt with
      | document _ unknown read =>
          rcases List.mem_append.mp member with old | new
          · exact ih old
          · cases List.mem_singleton.mp new
            refine Or.inr ⟨?_, read⟩
            cases known : r.cache.lookup place with
            | none => rfl
            | some entries' =>
                rw [Extends.lookup before known] at unknown
                cases unknown

/-- A file that holds no map, or cannot be read, leaves nothing behind. -/
theorem lookup_of_refused (grown : Extends files r s)
    (refused : ∀ entries, files.readStructured (.ofPlace place) ≠ .ok (.map entries)) :
    s.cache.lookup place = r.cache.lookup place := by
  refine grown.keeps (I := fun t => t.cache.lookup place = r.cache.lookup place) ?_ rfl
  intro t u learnt same
  cases learnt with
  | @document other entries _ _ read =>
      have different : place ≠ other := by
        rintro rfl
        exact refused entries read
      rw [List.lookup_append, List.lookup_cons, beq_eq_false_iff_ne.mpr different]
      simpa using same

end Extends

end Resolver

/-! ## Histories -/

/-- A resolver and the files around it. -/
structure Session where
  resolver : Resolver
  files : FileTable

namespace Session

open Resolver

/-- What may happen in a session. -/
inductive Event where
  | resolve
  | replace (document : Value)
  | write (place : Place) (bytes : List UInt8)
  | delete (place : Place)

/-- A session with a new resolver. -/
def start (document : Value) (base : Option Path) (files : FileTable) : Session :=
  ⟨.start document base, files⟩

/-- The session after an event.  What a resolver has learnt stays, whether it succeeds or
not. -/
def after (s : Session) : Event → Session
  | .resolve => { s with resolver := (resolve s.files s.resolver).2 }
  | .replace document => { s with resolver := { s.resolver with document } }
  | .write place bytes => { s with files := s.files.write place bytes }
  | .delete place => { s with files := s.files.delete place }

/-- The session after a history of events. -/
def run (s : Session) (history : List Event) : Session := history.foldl after s

theorem run_append (s : Session) (front back : List Event) :
    s.run (front ++ back) = (s.run front).run back := List.foldl_append

theorem run_snoc (s : Session) (front : List Event) (e : Event) :
    s.run (front ++ [e]) = (s.run front).after e := by
  rw [run_append]
  rfl

/-- What every event keeps of the resolver, every history keeps. -/
theorem run_keeps {I : Resolver → Prop} (s : Session) (history : List Event)
    (replaced : ∀ r document, I r → I { r with document })
    (resolved : ∀ files r t, Extends files r t → I r → I t) (holds : I s.resolver) :
    I (s.run history).resolver := by
  induction history generalizing s with
  | nil => exact holds
  | cons e rest ih =>
      refine ih (s.after e) ?_
      cases e with
      | resolve => exact resolved s.files _ _ (resolve_extends s.files s.resolver) holds
      | replace document => exact replaced _ document holds
      | write place bytes => exact holds
      | delete place => exact holds

theorem run_idle (s : Session) (history : List Event) :
    (s.run history).resolver.active = s.resolver.active :=
  s.run_keeps (I := fun r => r.active = s.resolver.active) history (fun _ _ same => same)
    (fun _ _ _ grown same => grown.active.trans same) rfl

theorem run_distinct (s : Session) (history : List Event)
    (distinct : (s.resolver.cache.map Prod.fst).Nodup) :
    ((s.run history).resolver.cache.map Prod.fst).Nodup :=
  s.run_keeps (I := fun r => (r.cache.map Prod.fst).Nodup) history (fun _ _ same => same)
    (fun _ _ _ grown distinct => grown.distinct distinct) distinct

theorem run_cache_grows (s : Session) (history : List Event) :
    s.resolver.cache <+: (s.run history).resolver.cache :=
  s.run_keeps (I := fun r => s.resolver.cache <+: r.cache) history (fun _ _ same => same)
    (fun _ _ _ grown before => before.trans grown.cache_grows) (List.prefix_refl _)

/-- Resolving at this point reads the document of a place for the first time, as its file
holds it. -/
structure Reads (s : Session) (place : Place) (entries : Entries) : Prop where
  unknown : s.resolver.cache.lookup place = none
  content : s.files.readStructured (.ofPlace place) = .ok (.map entries)
  learnt : (place, entries) ∈ (s.after .resolve).resolver.cache

/-- Every document that is known was read at some point of the history. -/
theorem run_reads (s : Session) (history : List Event) {place : Place} {entries : Entries}
    (member : (place, entries) ∈ (s.run history).resolver.cache) :
    (place, entries) ∈ s.resolver.cache ∨
      ∃ front back, history = front ++ .resolve :: back ∧ (s.run front).Reads place entries := by
  induction history using List.reverseRecOn with
  | nil => exact Or.inl member
  | append_singleton front e ih =>
      have later : (place, entries) ∈ (s.run front).resolver.cache →
          (place, entries) ∈ s.resolver.cache ∨ ∃ before back,
            front ++ [e] = before ++ .resolve :: back ∧ (s.run before).Reads place entries := by
        intro old
        refine (ih old).imp_right ?_
        rintro ⟨before, back, rfl, reads⟩
        exact ⟨before, back ++ [e], by simp, reads⟩
      rw [run_snoc] at member
      cases e with
      | resolve =>
          rcases (resolve_extends _ (s.run front).resolver).of_mem member with old | ⟨new, read⟩
          · exact later old
          · exact Or.inr ⟨front, [], rfl, new, read, member⟩
      | replace document => exact later member
      | write place bytes => exact later member
      | delete place => exact later member

/-- What holds of a session after a history, and of what it would do next. -/
structure Settled (s : Session) (history : List Event) : Prop where
  /-- Nothing is being expanded. -/
  idle : (s.run history).resolver.active = []
  /-- A walk leaves the references being expanded as it found them, however it ends. -/
  balanced : ∀ depth base v r,
    (expand (openReference (s.run history).files depth) base v r).2.active = r.active
  /-- Resolving never repeats a reference that is being expanded: what would be done instead
  does not matter. -/
  unrepeated : ∀ otherwise,
    resolveWatched (s.run history).files otherwise (s.run history).resolver =
      resolve (s.run history).files (s.run history).resolver
  /-- Every place has one document at most. -/
  distinct : ((s.run history).resolver.cache.map Prod.fst).Nodup
  /-- No document that is known is lost or changes, whatever comes. -/
  kept : ∀ later, (s.run history).resolver.cache <+: (s.run (history ++ later)).resolver.cache
  /-- Every document that is known is what its file held when it was first read. -/
  read : ∀ place entries, (place, entries) ∈ (s.run history).resolver.cache →
    ∃ front back, history = front ++ .resolve :: back ∧ (s.run front).Reads place entries
  /-- A file that cannot be read, or holds no map, leaves nothing behind. -/
  refused : ∀ place,
    (∀ entries, (s.run history).files.readStructured (.ofPlace place) ≠ .ok (.map entries)) →
    ((s.run history).after .resolve).resolver.cache.lookup place =
      (s.run history).resolver.cache.lookup place

/-- **A resolver is settled after every history**, whichever of its resolutions failed. -/
theorem run_settled (document : Value) (base : Option Path) (files : FileTable)
    (history : List Event) : (start document base files).Settled history := by
  have idle : ((start document base files).run history).resolver.active = [] :=
    run_idle _ history
  constructor
  case idle => exact idle
  case balanced =>
    intro depth base v r
    exact (expand_extends (openReference_extends _ depth) base v r).active
  case unrepeated =>
    intro otherwise
    refine resolveWatched_eq _ otherwise ?_
    rw [idle]
    exact List.nodup_nil
  case distinct => exact run_distinct _ history List.nodup_nil
  case kept =>
    intro later
    rw [run_append]
    exact run_cache_grows _ later
  case read =>
    intro place entries member
    rcases run_reads _ history member with old | later
    · cases old
    · exact later
  case refused =>
    intro place refused
    exact (resolve_extends _ _).lookup_of_refused refused

/-- A session whose document refers to a note. -/
def noteSession : Session :=
  start (.object [("note", .object [("$ref", .str "note.json")])]) none ⟨["work"], [], []⟩

/-- The note is missing, and then a list. -/
def noteRefusals : List Event := [.resolve, .write ["work", "note.json"] [91, 93], .resolve]

/-- The note is an empty map, and then it is gone. -/
def noteReadings : List Event :=
  [.write ["work", "note.json"] [123, 125], .resolve, .delete ["work", "note.json"], .resolve]

theorem run_settled_note :
    noteSession.Settled (noteRefusals ++ noteReadings) ∧
      (noteSession.run noteRefusals).resolver = noteSession.resolver ∧
      (noteSession.run (noteRefusals ++ noteReadings)).resolver.cache =
        [(["work", "note.json"], [])] ∧
      ∃ front back, noteRefusals ++ noteReadings = front ++ .resolve :: back ∧
        (noteSession.run front).Reads ["work", "note.json"] [] := by
  have settled : noteSession.Settled (noteRefusals ++ noteReadings) := run_settled _ none _ _
  have refused : noteSession.run noteRefusals =
      { noteSession with files := noteSession.files.write ["work", "note.json"] [91, 93] } := rfl
  have known : (noteSession.run (noteRefusals ++ noteReadings)).resolver.cache =
      [(["work", "note.json"], [])] := by
    rw [run_append, refused]
    rfl
  refine ⟨settled, by rw [refused], known, settled.read _ _ ?_⟩
  rw [known]
  exact List.mem_singleton_self _

end Session

end ClientForge
