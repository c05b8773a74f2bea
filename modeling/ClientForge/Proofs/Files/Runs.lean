/-
# ClientForge.Proofs.Files.Runs -- what a filing step leaves behind

`Leads` says which result a filing step has on a table of files, and which table it leaves
behind.  It is known of everything that steps are put together with, in both directions: a
run is taken apart into those of its steps, and the runs of steps are put together to
another one.

`Fails` says the same of a step without a result.  The files that a sequence leaves behind
then are those of the step that failed, so what was written before it stays.
-/
import ClientForge.Files.Filing

namespace ClientForge.Files

set_option autoImplicit false

/-- The table with texts at paths, written one after the other. -/
def FileTable.writeTexts (t : FileTable) (texts : List (Path × String)) : Attempt FileTable :=
  texts.foldlM (fun t entry => t.writeText entry.1 entry.2) t

namespace Filing

variable {α β : Type} {before after : FileTable}

/-- The step has this result, and leaves these files behind. -/
def Leads (x : Filing α) (before : FileTable) (a : α) (after : FileTable) : Prop :=
  (x.run before).2.result = .ok a ∧ (x.run before).1 = after

theorem leads_bind_iff {x : Filing α} {f : α → Filing β} {b : β} :
    (x >>= f).Leads before b after ↔
      ∃ a between, x.Leads before a between ∧ (f a).Leads between b after := by
  constructor
  · rintro ⟨result, files⟩
    cases first : (x.run before).2.result with
    | error e =>
        rw [bind_fail first] at result
        cases result
    | ok a =>
        rw [bind_ok first] at result files
        exact ⟨a, _, ⟨first, rfl⟩, result, files⟩
  · rintro ⟨a, _, ⟨first, rfl⟩, result, files⟩
    unfold Leads
    rw [bind_ok first]
    exact ⟨result, files⟩

theorem leads_pure_iff {a b : α} :
    (pure a : Filing α).Leads before b after ↔ a = b ∧ before = after :=
  and_congr_left fun _ => ⟨Except.ok.inj, congrArg _⟩

/-- A step that leaves the files alone. -/
theorem leads_traced_iff {x : Traced α} {a : α} :
    (liftM x : Filing α).Leads before a after ↔ x.result = .ok a ∧ before = after := Iff.rfl

theorem leads_attempt_iff {x : Attempt α} {a : α} :
    (liftM x : Filing α).Leads before a after ↔ x = .ok a ∧ before = after := Iff.rfl

theorem leads_inspect_iff {look : FileTable → Traced α} {a : α} :
    (inspect look).Leads before a after ↔ (look before).result = .ok a ∧ before = after := Iff.rfl

theorem leads_update_iff {change : FileTable → Attempt FileTable} {u : Unit} :
    (update change).Leads before u after ↔ change before = .ok after := by
  unfold Leads update
  dsimp only
  split
  · rename_i changed run
    rw [run]
    exact ⟨fun both => congrArg _ both.2, fun same => ⟨rfl, Except.ok.inj same⟩⟩
  · rename_i e run
    rw [run]
    constructor
    · rintro ⟨⟨⟩, -⟩
    · rintro ⟨⟩

/-! ## Steps that fail -/

variable {e : Failure}

/-- The step fails for this reason, and leaves these files behind. -/
def Fails (x : Filing α) (before : FileTable) (e : Failure) (after : FileTable) : Prop :=
  (x.run before).2.result = .error e ∧ (x.run before).1 = after

theorem fails_bind_iff {x : Filing α} {f : α → Filing β} :
    (x >>= f).Fails before e after ↔
      x.Fails before e after ∨
        ∃ a between, x.Leads before a between ∧ (f a).Fails between e after := by
  unfold Fails
  cases first : (x.run before).2.result with
  | error e' =>
      rw [bind_fail first]
      constructor
      · rintro ⟨result, files⟩
        exact Or.inl ⟨congrArg _ (Except.error.inj result), files⟩
      · rintro (⟨result, files⟩ | ⟨a, _, ⟨result, -⟩, -⟩)
        · exact ⟨congrArg _ (Except.error.inj result), files⟩
        · rw [first] at result
          cases result
  | ok a =>
      rw [bind_ok first]
      constructor
      · intro failed
        exact Or.inr ⟨a, _, ⟨first, rfl⟩, failed⟩
      · rintro (⟨⟨⟩, -⟩ | ⟨a', _, ⟨result, rfl⟩, failed⟩)
        rw [first] at result
        cases result
        exact failed

theorem fails_pure_iff {a : α} : (pure a : Filing α).Fails before e after ↔ False := by
  constructor
  · rintro ⟨⟨⟩, -⟩
  · exact False.elim

theorem fails_traced_iff {x : Traced α} :
    (liftM x : Filing α).Fails before e after ↔ x.result = .error e ∧ before = after := Iff.rfl

theorem fails_attempt_iff {x : Attempt α} :
    (liftM x : Filing α).Fails before e after ↔ x = .error e ∧ before = after := Iff.rfl

theorem fails_inspect_iff {look : FileTable → Traced α} :
    (inspect look).Fails before e after ↔ (look before).result = .error e ∧ before = after :=
  Iff.rfl

theorem fails_update_iff {change : FileTable → Attempt FileTable} :
    (update change).Fails before e after ↔ change before = .error e ∧ before = after := by
  unfold Fails update
  dsimp only
  split
  · rename_i changed run
    rw [run]
    constructor
    · rintro ⟨⟨⟩, -⟩
    · rintro ⟨⟨⟩, -⟩
  · rename_i e' run
    rw [run]
    exact and_congr_left fun _ =>
      ⟨fun same => congrArg _ (Except.error.inj same),
        fun same => congrArg _ (Except.error.inj same)⟩

end Filing

end ClientForge.Files
