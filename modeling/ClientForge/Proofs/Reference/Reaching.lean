/-
# ClientForge.Proofs.Reference.Reaching -- a resolver gets to every expansion

A resolver that succeeds has derived an expansion (`expand_eq_ok`).  This is the way back:
what expands in the files of a world, a resolver of that world expands, reading the files
that it has not read so far (`Expands.reached`).  So a document resolves to a value exactly if
it expands to it (`resolve_iff_expands`), and what is said of expansions is said of every
resolution, those that fail included.

`Reaches files x a r` says that the step `x` has the result `a` from `r` and from whatever `r`
may have grown to.  Reading more files on the way does no harm then, and a sequence is put
together from its steps (`Reaches.bind`).
-/
import ClientForge.Proofs.Reference.Recursion
import ClientForge.Proofs.Reference.Replay

namespace ClientForge.Resolver

set_option autoImplicit false

open Files

variable {α β : Type} {files : FileTable}

/-! ## Steps that reach a result -/

/-- The step has this result, however many documents have been learnt, and learns at most. -/
def Reaches (files : FileTable) (x : Expanding α) (a : α) (r : Resolver) : Prop :=
  ∀ t, Extends files r t → ∃ s, x t = (.ok a, s) ∧ Extends files t s

namespace Reaches

variable {r : Resolver}

theorem pure (a : α) : Reaches files (pure a) a r := fun t _ => ⟨t, rfl, .refl t⟩

/-- The second step may start from what the first one has learnt. -/
theorem bind {x : Expanding α} {f : α → Expanding β} {a : α} {b : β}
    (first : Reaches files x a r) (later : Reaches files (f a) b r) :
    Reaches files (x >>= f) b r := by
  intro t grown
  obtain ⟨s, run, grown'⟩ := first t grown
  obtain ⟨u, run', grown''⟩ := later s (grown.trans grown')
  exact ⟨u, (bind_ok run f).trans run', grown'.trans grown''⟩

/-- A step reaches what it is equal to wherever the resolver has grown to. -/
theorem congr {x y : Expanding α} {a : α} (reached : Reaches files y a r)
    (same : ∀ t, Extends files r t → x t = y t) : Reaches files x a r := by
  intro t grown
  rw [same t grown]
  exact reached t grown

theorem withActive {reference : String} {x : Expanding α} {a : α}
    (inner : Reaches files x a { r with active := reference :: r.active }) :
    Reaches files (withActive reference x) a r := by
  intro t grown
  have active := grown.active
  obtain ⟨s, run, grown'⟩ := inner { t with active := reference :: t.active } (by
    rw [active]
    exact grown.setActive _)
  refine ⟨{ s with active := s.active.tail }, ?_, ?_⟩
  · rw [withActive_apply, run]
  · have restored := grown'.setActive t.active
    rw [grown'.active]
    exact restored

theorem items {openRef : String → Path → Expanding Value} {base : Path}
    {items items' : List Value}
    (each : List.Forall₂ (fun v w => Reaches files (expand openRef base v) w r) items items') :
    Reaches files (expandItems openRef base items) items' r := by
  induction each with
  | nil => exact .pure []
  | cons first _ ih =>
      rw [expandItems]
      exact first.bind (ih.bind (.pure _))

theorem entries {openRef : String → Path → Expanding Value} {base : Path}
    {entries entries' : Entries}
    (each : Entries.Pointwise (fun v w => Reaches files (expand openRef base v) w r)
      entries entries') :
    Reaches files (expandEntries openRef base entries) entries' r := by
  induction each with
  | nil => exact .pure []
  | @cons entry entry' _ _ first _ ih =>
      obtain ⟨k, v⟩ := entry
      obtain ⟨k', v'⟩ := entry'
      obtain ⟨rfl, first⟩ := first
      rw [expandEntries]
      exact first.bind (ih.bind (.pure _))

theorem siblings {openRef : String → Path → Expanding Value} {base : Path}
    {entries beside : Entries} (fields : Entries)
    (each : Entries.Pointwise (fun v w => Reaches files (expand openRef base v) w r)
      (siblings entries) beside) :
    Reaches files (expandSiblings openRef base fields entries)
      (Entries.putAll fields beside) r := by
  induction entries generalizing fields beside with
  | nil =>
      cases each
      exact .pure fields
  | cons entry rest ih =>
      obtain ⟨k, v⟩ := entry
      rw [expandSiblings]
      by_cases same : k = .str "$ref"
      · rw [if_pos same]
        refine ih fields ?_
        simpa [Resolver.siblings, same] using each
      · rw [if_neg same]
        have kept : Resolver.siblings ((k, v) :: rest) = (k, v) :: Resolver.siblings rest := by
          simp [Resolver.siblings, same]
        rw [kept] at each
        obtain ⟨entry', others, ⟨rfl, first⟩, later, rfl⟩ := List.forall₂_cons_left_iff.mp each
        exact first.bind (ih _ later)

end Reaches

/-! ## Files as sources -/

section Within

variable {document : Value} {r : Resolver}

theorem loadDocument_reaches {place : Place} {entries : Entries} (up : ".." ∉ place)
    (know : (Sources.within files document).Know files r)
    (found : (Sources.within files document).document? place = some entries) :
    Reaches files (loadDocument files place) entries r := by
  intro t grown
  cases cached : t.cache.lookup place with
  | some old =>
      have same : old = entries :=
        Option.some.inj (((know.after grown).cache place old cached).symm.trans found)
      subst same
      exact ⟨t, loadDocument_of_known files cached, .refl t⟩
  | none =>
      have read : files.readStructured (.ofPlace place) = .ok (.map entries) := by
        unfold Sources.within at found
        dsimp only at found
        split at found
        · rename_i there read
          cases found
          exact read
        · cases found
      refine ⟨_, ?_, .single (.document up cached read)⟩
      rw [loadDocument, bind_ok (get_apply t), cached]
      dsimp only
      rw [read]
      rfl

theorem documentAt_reaches {address : String} {base inner : Path} {content : Value}
    (know : (Sources.within files document).Know files r)
    (found : (Sources.within files document).documentOf? address base = some (content, inner)) :
    Reaches files (documentAt files address base) (content, inner) r := by
  unfold Sources.documentOf? at found
  split at found
  · rename_i here
    cases found
    intro t grown
    refine ⟨t, ?_, .refl t⟩
    rw [documentAt, if_pos here, bind_ok (get_apply t), grown.document, ← know.root]
    rfl
  · rename_i elsewhere
    dsimp only at found
    split at found
    · cases found
    · rename_i named
      obtain ⟨entries, stored, same⟩ := Option.map_eq_some_iff.mp found
      cases same
      rw [documentAt, if_neg elsewhere]
      dsimp only
      rw [if_neg named]
      exact (loadDocument_reaches (up_not_mem_place _ _) know stored).bind (.pure _)

theorem lift_reaches {x : Attempt α} {a : α} (result : x = .ok a) :
    Reaches files (liftM x) a r := by
  subst result
  exact fun t _ => ⟨t, rfl, .refl t⟩

/-- A resolver follows every reference that the files follow. -/
theorem target_reaches {reference : String} {base inner : Path} {part : Value}
    (know : (Sources.within files document).Know files r)
    (found : (Sources.within files document).target? reference base = some (part, inner)) :
    Reaches files (target files reference base) (part, inner) r := by
  simp only [Sources.target?, Option.bind_eq_bind, Option.bind_eq_some_iff, Prod.exists,
    toOption_eq_some_iff] at found
  obtain ⟨address, fragment, cut, content, folder, load, raw, pick, found⟩ := found
  cases found
  unfold target
  exact (lift_reaches cut).bind ((documentAt_reaches know load).bind ((lift_reaches pick).bind
    (.pure _)))

/-! ## Expanding -/

theorem openFully_reaches {reference : String} {base inner : Path} {part w : Value}
    (found : Reaches files (target files reference base) (part, inner) r)
    (expands : Reaches files (expand (openFully files) inner part) w
      { r with active := reference :: r.active }) :
    Reaches files (openFully files reference base) w r := by
  rw [openFully_eq, openOnce]
  exact found.bind (.withActive expands)

/-- A resolver gets to every expansion in the files. -/
theorem Expands.reached {base : Path} {active : List String} {v w : Value}
    (expands : Expands (Sources.within files document) base active v w)
    (know : (Sources.within files document).Know files r) (same : r.active = active) :
    Reaches files (expand (openFully files) base v) w r := by
  induction expands generalizing r with
  | atom a => exact .pure _
  | list length _ ih =>
      rw [expand_list]
      refine Reaches.bind (.items ?_) (.pure _)
      exact List.forall₂_iff_zip.mpr ⟨length, fun member => ih _ _ member know same⟩
  | map free keys _ ih =>
      rw [expand_map_of_none _ _ free]
      refine Reaches.bind (.entries ?_) (.pure _)
      exact Entries.pointwise_iff.mpr
        ⟨keys, fun entry entry' member => ih _ _ member know same⟩
  | active refers active =>
      intro t grown
      exact ⟨t, expand_map_of_active _ _ refers (by rwa [grown.active, same]), .refl t⟩
  | alone refers inactive single found _ ih =>
      subst same
      refine .congr ?_ fun t grown =>
        expand_map_of_inactive _ _ refers (by rwa [grown.active])
      have opening := openFully_reaches (target_reaches know found) (ih (know.setActive _) rfl)
      refine opening.bind ?_
      rw [withSiblings_single _ _ single]
      exact .pure _
  | merged refers inactive several found _ keys _ ih each =>
      subst same
      refine .congr ?_ fun t grown =>
        expand_map_of_inactive _ _ refers (by rwa [grown.active])
      have opening := openFully_reaches (target_reaches know found) (ih (know.setActive _) rfl)
      refine opening.bind ?_
      rw [withSiblings_map _ _ several]
      refine Reaches.bind (.siblings _ ?_) (.pure _)
      exact Entries.pointwise_iff.mpr
        ⟨keys, fun entry entry' member => each _ _ member know rfl⟩

/-- A document resolves to what it expands to in the files, and to nothing else. -/
theorem resolve_iff_expands {base : Option Path} {w : Value} :
    (∃ s, resolve files (.start document base) = (.ok w, s)) ↔
      Expands (Sources.within files document) (base.getD ⟨false, []⟩) [] document w := by
  have fresh : (Sources.within files (start document base).document).Know files
      (start document base) := Sources.within_know rfl (.refl _)
  constructor
  · rintro ⟨s, run⟩
    exact expand_eq_ok run (fresh.after ((resolve_extends files _).of_run run))
  · intro expands
    rw [resolve_eq_expand (openFully_eq files)]
    obtain ⟨s, run, -⟩ := expands.reached fresh rfl _ (.refl _)
    exact ⟨s, run⟩

end Within

end ClientForge.Resolver
