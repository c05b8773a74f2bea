/-
# ClientForge.Proofs.Data.Attempt -- what a success was made of

A sequence of steps that succeeds is made of steps that do.  `bind_eq_ok` and its relatives
take such a success apart, so that what a step promises can be used without opening it.
A fold keeps what each of its steps keeps (`foldlM_keeps`).

The other way around, a sequence of steps fails for a reason of one of them: `FailsOnly` says
which reasons a step may have, and goes through everything that steps are put together with.
-/
import ClientForge.Traced
import Mathlib.Data.List.Forall2

namespace ClientForge

set_option autoImplicit false

variable {α β : Type}

theorem mapM_eq_some {f : α → Option β} {xs : List α} {ys : List β} (run : xs.mapM f = some ys) :
    List.Forall₂ (fun x y => f x = some y) xs ys := by
  induction xs generalizing ys with
  | nil =>
      cases run
      exact .nil
  | cons x rest ih =>
      rw [List.mapM_cons] at run
      obtain ⟨y, first, run⟩ := Option.bind_eq_some_iff.mp run
      obtain ⟨ys, later, run⟩ := Option.bind_eq_some_iff.mp run
      cases run
      exact .cons first (ih later)

namespace Attempt

theorem bind_eq_ok {x : Attempt α} {f : α → Attempt β} {b : β} (run : x >>= f = .ok b) :
    ∃ a, x = .ok a ∧ f a = .ok b := by
  cases x with
  | error e => cases run
  | ok a => exact ⟨a, rfl, run⟩

/-- Two ways to go on that continue in the same way. -/
theorem choice_eq_ok {given : Prop} [Decidable given] {x y : Attempt α} {f : α → Attempt β} {b : β}
    (run : (if given then x >>= f else y >>= f) = .ok b) : ∃ a, f a = .ok b := by
  split at run
  · obtain ⟨a, -, run⟩ := bind_eq_ok run
    exact ⟨a, run⟩
  · obtain ⟨a, -, run⟩ := bind_eq_ok run
    exact ⟨a, run⟩

/-- What was chosen, and what it led to. -/
theorem choice_bind_eq_ok {given : Prop} [Decidable given] {x y : Attempt α} {f : α → Attempt β}
    {b : β} (run : (if given then x >>= f else y >>= f) = .ok b) :
    ∃ a, (if given then x else y) = .ok a ∧ f a = .ok b := by
  split at run
  · rename_i holds
    rw [if_pos holds]
    exact bind_eq_ok run
  · rename_i free
    rw [if_neg free]
    exact bind_eq_ok run

theorem map_eq_ok {x : Attempt α} {f : α → β} {b : β} (run : x.map f = .ok b) :
    ∃ a, x = .ok a ∧ f a = b := by
  cases x with
  | error e => cases run
  | ok a =>
      cases run
      exact ⟨a, rfl, rfl⟩

/-- The results of a list of steps belong to its items one by one. -/
theorem mapM_eq_ok {f : α → Attempt β} {xs : List α} {ys : List β} (run : xs.mapM f = .ok ys) :
    List.Forall₂ (fun x y => f x = .ok y) xs ys := by
  induction xs generalizing ys with
  | nil =>
      cases run
      exact .nil
  | cons x rest ih =>
      rw [List.mapM_cons] at run
      obtain ⟨y, first, run⟩ := bind_eq_ok run
      obtain ⟨ys, later, run⟩ := bind_eq_ok run
      cases run
      exact .cons first (ih later)

theorem mapM_of_forall₂ {f : α → Attempt β} {xs : List α} {ys : List β}
    (each : List.Forall₂ (fun x y => f x = .ok y) xs ys) : xs.mapM f = .ok ys := by
  induction each with
  | nil => rfl
  | cons first _ ih =>
      rw [List.mapM_cons, first, ih]
      rfl

/-- Steps whose results are changed yield the changed list. -/
theorem mapM_eq_map {f g : α → Attempt β} {change : β → β} {xs : List α}
    (each : ∀ x ∈ xs, g x = (f x).map change) :
    xs.mapM g = (xs.mapM f).map (List.map change) := by
  induction xs with
  | nil => rfl
  | cons x rest ih =>
      rw [List.mapM_cons, List.mapM_cons, each x List.mem_cons_self,
        ih fun y member => each y (List.mem_cons_of_mem _ member)]
      cases f x with
      | error failure => rfl
      | ok y => cases rest.mapM f <;> rfl

theorem foldlM_keeps {P : β → Prop} {f : β → α → Attempt β} {xs : List α} {b c : β}
    (step : ∀ x ∈ xs, ∀ b c, f b x = .ok c → P b → P c) (run : xs.foldlM f b = .ok c)
    (start : P b) : P c := by
  induction xs generalizing b with
  | nil =>
      cases run
      exact start
  | cons x rest ih =>
      rw [List.foldlM_cons] at run
      obtain ⟨d, first, run⟩ := bind_eq_ok run
      exact ih (fun y member => step y (List.mem_cons_of_mem _ member)) run
        (step x List.mem_cons_self b d first start)

/-- If there is no result, it is for one of the reasons. -/
def FailsOnly (reasons : Failure → Prop) (x : Attempt α) : Prop :=
  ∀ e, x = .error e → reasons e

namespace FailsOnly

variable {reasons others : Failure → Prop} {x : Attempt α} {f : α → Attempt β}

theorem ok (a : α) : FailsOnly reasons (.ok a : Attempt α) := by
  intro e run
  cases run

theorem error {e : Failure} (reason : reasons e) : FailsOnly reasons (.error e : Attempt α) := by
  rintro _ ⟨⟩
  exact reason

theorem mono (fails : FailsOnly reasons x) (weaker : ∀ e, reasons e → others e) :
    FailsOnly others x := fun e run => weaker e (fails e run)

theorem bind (first : FailsOnly reasons x) (later : ∀ a, x = .ok a → FailsOnly reasons (f a)) :
    FailsOnly reasons (x >>= f) := by
  intro e run
  cases start : x with
  | error e' =>
      rw [start] at run
      cases run
      exact first e start
  | ok a =>
      rw [start] at run
      exact later a start e run

/-- Two ways to go on that continue in the same way. -/
theorem choice {given : Prop} [Decidable given] {y : Attempt α} (first : FailsOnly reasons x)
    (second : FailsOnly reasons y) (later : ∀ a, FailsOnly reasons (f a)) :
    FailsOnly reasons (if given then x >>= f else y >>= f) := by
  split
  · exact first.bind fun a _ => later a
  · exact second.bind fun a _ => later a

theorem map {g : α → β} (first : FailsOnly reasons x) : FailsOnly reasons (x.map g) := by
  intro e run
  cases start : x with
  | error e' =>
      rw [start] at run
      cases run
      exact first e start
  | ok a =>
      rw [start] at run
      cases run

theorem mapM {xs : List α} (each : ∀ x ∈ xs, FailsOnly reasons (f x)) :
    FailsOnly reasons (xs.mapM f) := by
  induction xs with
  | nil => exact .ok []
  | cons x rest ih =>
      rw [List.mapM_cons]
      refine .bind (each x List.mem_cons_self) fun y _ => ?_
      refine .bind (ih fun z member => each z (List.mem_cons_of_mem _ member)) fun ys _ => ?_
      exact .ok (y :: ys)

theorem foldlM {g : β → α → Attempt β} {xs : List α} {b : β}
    (step : ∀ x ∈ xs, ∀ b, FailsOnly reasons (g b x)) : FailsOnly reasons (xs.foldlM g b) := by
  induction xs generalizing b with
  | nil => exact .ok b
  | cons x rest ih =>
      rw [List.foldlM_cons]
      refine .bind (step x List.mem_cons_self b) fun c _ => ?_
      exact ih fun y member => step y (List.mem_cons_of_mem _ member)

end FailsOnly

/-- The step is refused, with a report, exactly if the condition holds; nothing else goes wrong. -/
structure RefusedIff (refused : Prop) (x : Attempt α) : Prop where
  accepts : ¬ refused → ∃ a, x = .ok a
  refuses : refused → ∃ report, x = .error (.reported report)

namespace RefusedIff

variable {refused other : Prop} {x : Attempt α} {f : α → Attempt β}

theorem ok (a : α) : RefusedIff False (.ok a : Attempt α) where
  accepts _ := ⟨a, rfl⟩
  refuses never := never.elim

theorem reject (cause : Cause) : RefusedIff True (reject cause : Attempt α) where
  accepts never := absurd trivial never
  refuses _ := ⟨⟨cause, none, none⟩, rfl⟩

theorem congr (step : RefusedIff refused x) (same : refused ↔ other) : RefusedIff other x where
  accepts free := step.accepts (mt same.mp free)
  refuses holds := step.refuses (same.mpr holds)

theorem exists_ok_iff (step : RefusedIff refused x) : (∃ a, x = .ok a) ↔ ¬ refused := by
  refine ⟨?_, step.accepts⟩
  rintro ⟨a, rfl⟩ holds
  obtain ⟨report, error⟩ := step.refuses holds
  cases error

theorem failsOnly (step : RefusedIff refused x) :
    FailsOnly (fun e => ∃ report, e = .reported report) x := by
  intro e failed
  have holds : refused := by
    by_contra free
    obtain ⟨a, run⟩ := step.accepts free
    rw [failed] at run
    cases run
  obtain ⟨report, run⟩ := step.refuses holds
  exact ⟨report, Except.error.inj (failed.symm.trans run)⟩

theorem map {g : α → β} (step : RefusedIff refused x) : RefusedIff refused (x.map g) where
  accepts free := by
    obtain ⟨a, rfl⟩ := step.accepts free
    exact ⟨g a, rfl⟩
  refuses holds := by
    obtain ⟨report, rfl⟩ := step.refuses holds
    exact ⟨report, rfl⟩

/-- Two steps are refused if one of them is. -/
theorem bind (first : RefusedIff refused x) (later : ∀ a, x = .ok a → RefusedIff other (f a)) :
    RefusedIff (refused ∨ other) (x >>= f) := by
  by_cases holds : refused
  · obtain ⟨report, rfl⟩ := first.refuses holds
    exact ⟨fun free => absurd (Or.inl holds) free, fun _ => ⟨report, rfl⟩⟩
  · obtain ⟨a, rfl⟩ := first.accepts holds
    exact (later a rfl).congr (or_iff_right holds).symm

/-- Two ways to go on that continue in the same way. -/
theorem choice {given : Prop} [Decidable given] {y : Attempt α} (first : RefusedIff refused x)
    (second : RefusedIff refused y) (later : ∀ a, RefusedIff other (f a)) :
    RefusedIff (refused ∨ other) (if given then x >>= f else y >>= f) := by
  split
  · exact first.bind fun a _ => later a
  · exact second.bind fun a _ => later a

theorem mapM {refused : α → Prop} {xs : List α} (each : ∀ x ∈ xs, RefusedIff (refused x) (f x)) :
    RefusedIff (∃ x ∈ xs, refused x) (xs.mapM f) := by
  induction xs with
  | nil => exact (ok []).congr (by simp)
  | cons x rest ih =>
      obtain ⟨here, later⟩ := List.forall_mem_cons.mp each
      rw [List.mapM_cons]
      refine (here.bind fun y _ => (ih later).bind fun ys _ => ok (y :: ys)).congr ?_
      simp

/-- Steps none of which is refused. -/
theorem mapM_accepts {xs : List α} (each : ∀ x ∈ xs, RefusedIff False (f x)) :
    RefusedIff False (xs.mapM f) := by
  have steps : RefusedIff (∃ x ∈ xs, False) (xs.mapM f) := mapM each
  exact steps.congr (by simp)

theorem foldlM {refused : α → Prop} {g : β → α → Attempt β} {xs : List α} {b : β}
    (each : ∀ x ∈ xs, ∀ b, RefusedIff (refused x) (g b x)) :
    RefusedIff (∃ x ∈ xs, refused x) (xs.foldlM g b) := by
  induction xs generalizing b with
  | nil => exact (ok b).congr (by simp)
  | cons x rest ih =>
      obtain ⟨here, later⟩ := List.forall_mem_cons.mp each
      rw [List.foldlM_cons]
      exact ((here b).bind fun c _ => ih later).congr (by simp)

end RefusedIff

/-- Two steps end alike: with results that are related, or with the same failure. -/
inductive Related (R : α → β → Prop) : Attempt α → Attempt β → Prop
  | ok {a : α} {b : β} : R a b → Related R (.ok a) (.ok b)
  | error (e : Failure) : Related R (.error e) (.error e)

theorem Related.map_eq {γ : Type} {R : α → β → Prop} {x : Attempt α} {y : Attempt β} {f : α → γ}
    {g : β → γ} (related : Related R x y) (same : ∀ a b, R a b → f a = g b) :
    x.map f = y.map g := by
  cases related with
  | ok holds => exact congrArg Except.ok (same _ _ holds)
  | error e => rfl

/-- Running a step that has a state, and then another; a step that fails leaves its state. -/
theorem bind_apply {σ : Type} (x : ExceptT Failure (StateM σ) α)
    (f : α → ExceptT Failure (StateM σ) β) (s : σ) :
    (x >>= f) s =
      match x s with
      | (.ok a, t) => f a t
      | (.error e, t) => (.error e, t) := by
  simp only [Bind.bind, ExceptT.bind, ExceptT.mk, StateT.bind, ExceptT.bindCont]
  cases x s with
  | mk a t => cases a <;> rfl

theorem bind_apply_of_ok {σ : Type} {x : ExceptT Failure (StateM σ) α}
    {f : α → ExceptT Failure (StateM σ) β} {s t : σ} {a : α} (run : x s = (.ok a, t)) :
    (x >>= f) s = f a t := by
  rw [bind_apply, run]

theorem bind_apply_of_error {σ : Type} {x : ExceptT Failure (StateM σ) α}
    {f : α → ExceptT Failure (StateM σ) β} {s : σ} {e : Failure} (run : (x s).1 = .error e) :
    ((x >>= f) s).1 = .error e := by
  rw [bind_apply]
  cases step : x s with
  | mk result t =>
      obtain rfl : result = .error e := by rw [← run, step]
      rfl

end Attempt

namespace Traced

theorem bind_eq_ok {x : Traced α} {f : α → Traced β} {b : β} (run : (x >>= f).result = .ok b) :
    ∃ a, x.result = .ok a ∧ (f a).result = .ok b := by
  cases first : x.result with
  | error e =>
      rw [bind_fail first] at run
      cases run
  | ok a =>
      rw [bind_ok first] at run
      exact ⟨a, rfl, run⟩

/-- A sequence fails where one of its steps does. -/
theorem bind_eq_error {x : Traced α} {f : α → Traced β} {e : Failure}
    (run : (x >>= f).result = .error e) :
    x.result = .error e ∨ ∃ a, x.result = .ok a ∧ (f a).result = .error e := by
  cases first : x.result with
  | error e' =>
      rw [bind_fail first] at run
      cases run
      exact Or.inl rfl
  | ok a =>
      rw [bind_ok first] at run
      exact Or.inr ⟨a, rfl, run⟩

theorem result_bind_pure (x : Traced α) (f : α → β) :
    (x >>= fun a => pure (f a)).result = x.result.map f := by
  cases first : x.result with
  | error e => rw [bind_fail first, Except.map]
  | ok a => rw [bind_ok first, Except.map, result_pure]

/-- A record that is left now and then does not change what comes behind it. -/
theorem record_eq_ok {given : Prop} [Decidable given] {record : Traced Unit} {x : Traced α} {a : α}
    (run : (if given then record >>= fun _ => x else x).result = .ok a) : x.result = .ok a := by
  split at run
  · obtain ⟨_, -, run⟩ := bind_eq_ok run
    exact run
  · exact run

theorem bind_failsOnly {reasons : Failure → Prop} {x : Traced α} {f : α → Traced β}
    (first : x.result.FailsOnly reasons)
    (later : ∀ a, x.result = .ok a → (f a).result.FailsOnly reasons) :
    (x >>= f).result.FailsOnly reasons := by
  intro e run
  cases start : x.result with
  | error e' =>
      rw [bind_fail start] at run
      cases run
      exact first e start
  | ok a =>
      rw [bind_ok start] at run
      exact later a start e run

theorem record_failsOnly {reasons : Failure → Prop} {given : Prop} [Decidable given]
    {level : Level} {source : Source} {message : String} {x : Traced α}
    (later : x.result.FailsOnly reasons) :
    (if given then record level source message >>= fun _ => x else x).result.FailsOnly
      reasons := by
  split
  · exact bind_failsOnly (.ok ()) fun _ _ => later
  · exact later

theorem bind_refusedIff {refused other : Prop} {x : Traced α} {f : α → Traced β}
    (first : x.result.RefusedIff refused)
    (later : ∀ a, x.result = .ok a → (f a).result.RefusedIff other) :
    (x >>= f).result.RefusedIff (refused ∨ other) := by
  have result : (x >>= f).result = x.result >>= fun a => (f a).result := by
    cases start : x.result with
    | error e => rw [bind_fail start]; rfl
    | ok a => rw [bind_ok start]; rfl
  rw [result]
  exact first.bind later

theorem record_refusedIff {refused : Prop} {given : Prop} [Decidable given]
    {level : Level} {source : Source} {message : String} {x : Traced α}
    (later : x.result.RefusedIff refused) :
    (if given then record level source message >>= fun _ => x else x).result.RefusedIff
      refused := by
  split
  · exact later
  · exact later

theorem foldlM_failsOnly {reasons : Failure → Prop} {f : β → α → Traced β} {xs : List α} {b : β}
    (step : ∀ x ∈ xs, ∀ b, (f b x).result.FailsOnly reasons) :
    (xs.foldlM f b).result.FailsOnly reasons := by
  induction xs generalizing b with
  | nil => exact .ok b
  | cons x rest ih =>
      rw [List.foldlM_cons]
      refine bind_failsOnly (step x List.mem_cons_self b) fun c _ => ?_
      exact ih fun y member => step y (List.mem_cons_of_mem _ member)

/-- In a fold that succeeds, each item was added somewhere on the way. -/
theorem foldlM_steps {f : β → α → Traced β} {xs : List α} {x : α} {b c : β}
    (run : (xs.foldlM f b).result = .ok c) (member : x ∈ xs) :
    ∃ before after, (f before x).result = .ok after := by
  induction xs generalizing b with
  | nil => cases member
  | cons y rest ih =>
      rw [List.foldlM_cons] at run
      obtain ⟨d, first, later⟩ := bind_eq_ok run
      rcases List.mem_cons.mp member with rfl | member
      · exact ⟨b, d, first⟩
      · exact ih later member

section Related

open Attempt (Related)

variable {γ δ : Type} {R : α → β → Prop} {S : γ → δ → Prop}

theorem bind_related {x : Traced α} {y : Traced β} {f : α → Traced γ} {g : β → Traced δ}
    (first : Related R x.result y.result)
    (later : ∀ a b, R a b → Related S (f a).result (g b).result) :
    Related S (x >>= f).result (y >>= g).result := by
  cases start : x.result with
  | error e =>
      cases start' : y.result with
      | error e' =>
          rw [start, start'] at first
          cases first
          rw [bind_fail start, bind_fail start']
          exact .error e
      | ok b =>
          rw [start, start'] at first
          cases first
  | ok a =>
      cases start' : y.result with
      | error e' =>
          rw [start, start'] at first
          cases first
      | ok b =>
          rw [start, start'] at first
          cases first with
          | ok holds =>
              rw [bind_ok start, bind_ok start']
              exact later a b holds

theorem foldlM_related {f : γ → α → Traced γ} {g : δ → β → Traced δ} {xs : List α} {ys : List β}
    (each : List.Forall₂ R xs ys)
    (step : ∀ x y, R x y → ∀ c d, S c d → Related S (f c x).result (g d y).result)
    {c : γ} {d : δ} (start : S c d) :
    Related S (xs.foldlM f c).result (ys.foldlM g d).result := by
  induction each generalizing c d with
  | nil => exact .ok start
  | cons first _ ih =>
      rw [List.foldlM_cons, List.foldlM_cons]
      exact bind_related (step _ _ first c d start) fun c d holds => ih holds

end Related

end Traced

end ClientForge
