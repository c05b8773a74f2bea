/-
# ClientForge.Proofs.Reference.Step -- what a step of the expansion does to the resolver

A step of the expansion is a function from a resolver to a result and a resolver
(`bind_ok` and its neighbours run it).  Whether it succeeds or fails, all that a step can
do to the resolver is to learn documents: each is read from its file, is appended to the
cache under a place that had none, and stays there (`Learns`, `Extends`).  Document, base
and the references being expanded are as before.

`Agrees files x y r` says that two steps do the same from a resolver, and that they only
learn from it.  It is closed under sequencing (`Agrees.bind`) and under marking a reference
as being expanded (`Agrees.withActive`).
-/
import ClientForge.Proofs.Data.Attempt
import ClientForge.Proofs.Data.Part
import ClientForge.Reference.Resolver
import Mathlib.Logic.Relation

namespace ClientForge.Resolver

set_option autoImplicit false

open Files

variable {α β : Type}

/-! ## Running a step -/

theorem bind_ok {x : Expanding α} {a : α} {r s : Resolver} (first : x r = (.ok a, s))
    (f : α → Expanding β) : (x >>= f) r = f a s :=
  Attempt.bind_apply_of_ok first

theorem bind_error {x : Expanding α} {e : Failure} {r s : Resolver}
    (first : x r = (.error e, s)) (f : α → Expanding β) : (x >>= f) r = (.error e, s) := by
  rw [Attempt.bind_apply, first]

/-- A sequence that succeeds is made of two steps that do. -/
theorem bind_eq_ok {x : Expanding α} {f : α → Expanding β} {r t : Resolver} {b : β}
    (run : (x >>= f) r = (.ok b, t)) : ∃ a s, x r = (.ok a, s) ∧ f a s = (.ok b, t) := by
  rw [Attempt.bind_apply] at run
  cases first : x r with
  | mk result s =>
      rw [first] at run
      cases result with
      | ok a => exact ⟨a, s, rfl, run⟩
      | error e => cases run

theorem get_apply (r : Resolver) : (get : Expanding Resolver) r = (.ok r, r) := rfl

theorem lift_apply (x : Attempt α) (r : Resolver) : (liftM x : Expanding α) r = (x, r) := rfl

theorem lift_eq_ok {x : Attempt α} {a : α} {r s : Resolver}
    (run : (liftM x : Expanding α) r = (.ok a, s)) : x = .ok a ∧ r = s := by
  rw [lift_apply] at run
  exact Prod.mk.inj run

theorem withActive_apply (reference : String) (step : Expanding α) (r : Resolver) :
    withActive reference step r =
      ((step { r with active := reference :: r.active }).1,
        { (step { r with active := reference :: r.active }).2 with
          active := (step { r with active := reference :: r.active }).2.active.tail }) := rfl

theorem withActive_eq_ok {reference : String} {step : Expanding α} {a : α} {r s : Resolver}
    (run : withActive reference step r = (.ok a, s)) :
    ∃ t, step { r with active := reference :: r.active } = (.ok a, t) ∧
      s = { t with active := t.active.tail } := by
  rw [withActive_apply] at run
  obtain ⟨result, same⟩ := Prod.mk.inj run
  exact ⟨_, Prod.ext result rfl, same.symm⟩

/-! ## Learning documents -/

/-- One document is read from its file and remembered. -/
inductive Learns (files : FileTable) (r : Resolver) : Resolver → Prop
  | document {place : Place} {entries : Entries} :
      ".." ∉ place → r.cache.lookup place = none →
      files.readStructured (.ofPlace place) = .ok (.map entries) →
      Learns files r { r with cache := r.cache ++ [(place, entries)] }

/-- The second resolver is the first one, with more documents. -/
def Extends (files : FileTable) : Resolver → Resolver → Prop :=
  Relation.ReflTransGen (Learns files)

namespace Extends

variable {files : FileTable} {r s t : Resolver}

theorem refl (r : Resolver) : Extends files r r := Relation.ReflTransGen.refl

theorem trans (first : Extends files r s) (second : Extends files s t) : Extends files r t :=
  Relation.ReflTransGen.trans first second

/-- The resolver that a run ends with is the second component of the run. -/
theorem of_run {x : Expanding α} {result : Except Failure α} (grown : Extends files r (x r).2)
    (run : x r = (result, s)) : Extends files r s := by
  rw [run] at grown
  exact grown

/-- What every learnt document keeps, extending keeps. -/
theorem keeps {I : Resolver → Prop} (grown : Extends files r s)
    (step : ∀ t u, Learns files t u → I t → I u) (holds : I r) : I s := by
  induction grown with
  | refl => exact holds
  | tail _ learnt ih => exact step _ _ learnt ih

theorem document (grown : Extends files r s) : s.document = r.document :=
  grown.keeps (I := fun t => t.document = r.document)
    (fun _ _ learnt same => by cases learnt; exact same) rfl

theorem active (grown : Extends files r s) : s.active = r.active :=
  grown.keeps (I := fun t => t.active = r.active)
    (fun _ _ learnt same => by cases learnt; exact same) rfl

theorem base (grown : Extends files r s) : s.base = r.base :=
  grown.keeps (I := fun t => t.base = r.base)
    (fun _ _ learnt same => by cases learnt; exact same) rfl

/-- A document that is known stays known. -/
theorem lookup (grown : Extends files r s) {place : Place} {entries : Entries}
    (known : r.cache.lookup place = some entries) : s.cache.lookup place = some entries := by
  refine grown.keeps (I := fun t => t.cache.lookup place = some entries) ?_ known
  intro t u learnt known
  cases learnt with
  | document _ _ _ => simp [List.lookup_append, known]

/-- The references being expanded do not matter for what is learnt. -/
theorem setActive (grown : Extends files r s) (active : List String) :
    Extends files { r with active } { s with active } := by
  induction grown with
  | refl => exact .refl _
  | tail _ learnt ih =>
      refine ih.trans (Relation.ReflTransGen.single ?_)
      cases learnt with
      | document up new found => exact .document up new found

end Extends

theorem bind_extends {files : FileTable} {x : Expanding α} {f : α → Expanding β}
    {r : Resolver} (first : Extends files r (x r).2)
    (rest : ∀ a s, x r = (.ok a, s) → Extends files s (f a s).2) :
    Extends files r ((x >>= f) r).2 := by
  cases run : x r with
  | mk result s =>
      have grown := first.of_run run
      cases result with
      | error e =>
          rw [bind_error run]
          exact grown
      | ok a =>
          rw [bind_ok run]
          exact grown.trans (rest a s run)

/-! ## Two steps that agree -/

/-- Two steps do the same from `r`, and only learn documents. -/
structure Agrees (files : FileTable) (x y : Expanding α) (r : Resolver) : Prop where
  same : x r = y r
  grows : Extends files r (x r).2

namespace Agrees

variable {files : FileTable} {r : Resolver}

theorem pure (a : α) : Agrees files (pure a : Expanding α) (Pure.pure a) r := ⟨rfl, .refl r⟩

theorem throw (e : Failure) : Agrees files (throw e : Expanding α) (throwThe Failure e) r :=
  ⟨rfl, .refl r⟩

theorem bind {x y : Expanding α} {f g : α → Expanding β} (first : Agrees files x y r)
    (rest : ∀ a s, x r = (.ok a, s) → Agrees files (f a) (g a) s) :
    Agrees files (x >>= f) (y >>= g) r := by
  refine ⟨?_, bind_extends first.grows fun a s run => (rest a s run).grows⟩
  have same := first.same
  cases run : x r with
  | mk result s =>
      rw [run] at same
      cases result with
      | error e => rw [bind_error run, bind_error same.symm]
      | ok a =>
          rw [bind_ok run, bind_ok same.symm]
          exact (rest a s run).same

/-- A step that runs while a reference is being expanded leaves the others as they were. -/
theorem withActive {x y : Expanding α} (reference : String)
    (inner : Agrees files x y { r with active := reference :: r.active }) :
    Agrees files (withActive reference x) (withActive reference y) r := by
  refine ⟨?_, ?_⟩
  · rw [withActive_apply, withActive_apply, inner.same]
  · rw [withActive_apply]
    have grown := inner.grows.setActive r.active
    have active := inner.grows.active
    rw [active]
    exact grown

end Agrees

/-! ## Reading documents -/

theorem up_not_mem_collapse (parts : List String) (done : Place) (clean : ".." ∉ done) :
    ".." ∉ Path.collapse parts done := by
  induction parts generalizing done with
  | nil => simpa [Path.collapse] using clean
  | cons part rest ih =>
      rw [Path.collapse]
      split
      · exact ih _ fun member => clean (List.mem_of_mem_tail member)
      · rename_i other
        exact ih _ (by simp [clean, Ne.symm other])

/-- A place has no double dots. -/
theorem up_not_mem_place (workdir : Place) (p : Path) : ".." ∉ p.place workdir :=
  up_not_mem_collapse _ _ (by simp)

theorem loadDocument_extends (files : FileTable) {place : Place} (up : ".." ∉ place)
    (r : Resolver) : Extends files r (loadDocument files place r).2 := by
  rw [loadDocument, bind_ok (get_apply r)]
  cases known : r.cache.lookup place with
  | some entries => exact .refl r
  | none =>
      refine bind_extends (.refl r) fun value s read => ?_
      obtain ⟨found, rfl⟩ := lift_eq_ok read
      cases value with
      | map entries => exact .single (.document up known found)
      | atom a => exact .refl r
      | list items => exact .refl r

/-- A document that is handed out is known from then on. -/
theorem loadDocument_known {files : FileTable} {place : Place} {r s : Resolver}
    {entries : Entries} (run : loadDocument files place r = (.ok entries, s)) :
    s.cache.lookup place = some entries := by
  rw [loadDocument, bind_ok (get_apply r)] at run
  cases known : r.cache.lookup place with
  | some found =>
      rw [known] at run
      cases run
      exact known
  | none =>
      rw [known] at run
      obtain ⟨value, t, read, run⟩ := bind_eq_ok run
      obtain ⟨-, rfl⟩ := lift_eq_ok read
      cases value with
      | map found =>
          cases run
          simp [List.lookup_append, known]
      | atom a => cases run
      | list items => cases run

end ClientForge.Resolver
