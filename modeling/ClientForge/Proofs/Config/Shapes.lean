/-
# ClientForge.Proofs.Config.Shapes -- what settings may look like

Reading a setting is total on values: it has a result exactly for the values of the right
shape, and whatever else it is given is an error of the settings.  What the readers demand is
said here without them: `HasLiteralForm` for values that end up in the code,
`MeansRequestOptions` for request options, and a truth value for a flag.

A setting is read in the same way wherever it stands, and whatever it replaces.
-/
import ClientForge.Config.Reader
import ClientForge.Proofs.Data.Attempt
import ClientForge.Proofs.Data.Part

namespace ClientForge

set_option autoImplicit false

/-- An error of the settings. -/
def Failure.IsSetting (e : Failure) : Prop := ∃ fault, e = .of (.config fault)

theorem rejectSetting_failsOnly {α : Type} (fault : ConfigFault) :
    (rejectSetting fault : Attempt α).FailsOnly Failure.IsSetting := .error ⟨fault, rfl⟩

/-- A date or a time. -/
def Scalar.IsTime : Scalar → Prop
  | .date _ => True
  | .moment _ => True
  | _ => False

namespace Config

/-! ## Values with a literal form -/

/-- A value that can be written in code: it holds no times, and all keys are texts. -/
inductive HasLiteralForm : Value → Prop
  | atom {a : Scalar} : ¬ a.IsTime → HasLiteralForm (.atom a)
  | list {items : List Value} : (∀ v ∈ items, HasLiteralForm v) → HasLiteralForm (.list items)
  | map {entries : Entries} :
      (∀ entry ∈ entries, ∃ name, entry.1 = .str name) →
      (∀ entry ∈ entries, HasLiteralForm entry.2) → HasLiteralForm (.map entries)

theorem checkItems_eq_ok_iff {place : String} {items : List Value} :
    checkItems place items = .ok () ↔ ∀ v ∈ items, checkLiteral place v = .ok () := by
  induction items with
  | nil => simp [checkItems]
  | cons v rest ih =>
      rw [checkItems, List.forall_mem_cons, ← ih]
      cases checkLiteral place v with
      | error e => simp [bind, Except.bind]
      | ok u => simp [bind, Except.bind]

theorem checkEntries_eq_ok_iff {place : String} {entries : Entries} :
    checkEntries place entries = .ok () ↔ ∀ entry ∈ entries, ∃ name, entry.1 = .str name ∧
      checkLiteral (place ++ "." ++ name) entry.2 = .ok () := by
  induction entries with
  | nil => simp [checkEntries]
  | cons entry rest ih =>
      obtain ⟨k, v⟩ := entry
      rw [List.forall_mem_cons, ← ih]
      cases k with
      | str name =>
          cases checked : checkLiteral (place ++ "." ++ name) v with
          | error e => simp [checkEntries, checked, bind, Except.bind]
          | ok u => simp [checkEntries, checked, bind, Except.bind]
      | _ => simp [checkEntries, rejectSetting, reject]

/-- The check lets exactly those values pass that can be written. -/
theorem checkLiteral_eq_ok_iff (v : Value) (place : String) :
    checkLiteral place v = .ok () ↔ HasLiteralForm v := by
  induction v generalizing place with
  | atom a =>
      have form : HasLiteralForm (.atom a) ↔ ¬ a.IsTime := by
        constructor
        · intro form
          cases form with
          | atom none => exact none
        · exact .atom
      rw [form]
      cases a <;> simp [checkLiteral, Scalar.IsTime, rejectSetting, reject]
  | list items ih =>
      rw [checkLiteral, checkItems_eq_ok_iff]
      constructor
      · intro each
        exact .list fun v member => (ih v member place).mp (each v member)
      · intro form
        cases form with
        | list each => exact fun v member => (ih v member place).mpr (each v member)
  | map entries ih =>
      rw [checkLiteral, checkEntries_eq_ok_iff]
      constructor
      · intro each
        refine .map (fun entry member => ?_) (fun entry member => ?_)
        · obtain ⟨name, key, -⟩ := each entry member
          exact ⟨name, key⟩
        · obtain ⟨name, -, checked⟩ := each entry member
          exact (ih entry member _).mp checked
      · intro form entry member
        cases form with
        | map keys each =>
            obtain ⟨name, key⟩ := keys entry member
            exact ⟨name, key, (ih entry member _).mpr (each entry member)⟩

theorem checkItems_failsOnly {place : String} {items : List Value}
    (each : ∀ v ∈ items, (checkLiteral place v).FailsOnly Failure.IsSetting) :
    (checkItems place items).FailsOnly Failure.IsSetting := by
  induction items with
  | nil => exact .ok ()
  | cons v rest ih =>
      rw [checkItems]
      refine .bind (each v List.mem_cons_self) fun _ _ => ?_
      exact ih fun w member => each w (List.mem_cons_of_mem _ member)

theorem checkEntries_failsOnly {place : String} {entries : Entries}
    (each : ∀ entry ∈ entries, ∀ place,
      (checkLiteral place entry.2).FailsOnly Failure.IsSetting) :
    (checkEntries place entries).FailsOnly Failure.IsSetting := by
  induction entries with
  | nil => exact .ok ()
  | cons entry rest ih =>
      obtain ⟨k, v⟩ := entry
      cases k with
      | str name =>
          rw [checkEntries]
          refine .bind (each _ List.mem_cons_self _) fun _ _ => ?_
          exact ih fun other member => each other (List.mem_cons_of_mem _ member)
      | _ => exact rejectSetting_failsOnly _

theorem checkLiteral_failsOnly (v : Value) (place : String) :
    (checkLiteral place v).FailsOnly Failure.IsSetting := by
  induction v generalizing place with
  | atom a =>
      cases a with
      | date d => exact rejectSetting_failsOnly _
      | moment m => exact rejectSetting_failsOnly _
      | _ => exact .ok ()
  | list items ih => exact checkItems_failsOnly fun v member => ih v member place
  | map entries ih => exact checkEntries_failsOnly ih

/-! ## Single settings -/

/-- What a value means as request options. -/
inductive MeansRequestOptions : Value → RequestOptions → Prop
  | allowed (flag : Bool) : MeansRequestOptions (.bool flag) (.allowed flag)
  | preset {options : Entries} :
      HasLiteralForm (.map options) → MeansRequestOptions (.map options) (.preset options)

theorem requestOptions_eq_ok_iff {v : Value} {r : RequestOptions} :
    requestOptions v = .ok r ↔ MeansRequestOptions v r := by
  constructor
  · intro run
    unfold requestOptions at run
    split at run
    · cases run
      exact .allowed _
    · obtain ⟨u, checked, run⟩ := Attempt.bind_eq_ok run
      cases run
      exact .preset ((checkLiteral_eq_ok_iff _ "requestOptions").mp checked)
    · cases run
  · intro means
    cases means with
    | allowed flag => rfl
    | preset form =>
        have checked := (checkLiteral_eq_ok_iff _ "requestOptions").mpr form
        rw [checkLiteral] at checked
        rw [requestOptions, checked]
        rfl

theorem requestOptions_failsOnly (v : Value) :
    (requestOptions v).FailsOnly Failure.IsSetting := by
  unfold requestOptions
  split
  · exact .ok _
  · exact .bind (checkLiteral_failsOnly (.map _) _) fun _ _ => .ok _
  · exact rejectSetting_failsOnly _

theorem flag_eq_ok_iff {key : String} {v : Value} {b : Bool} :
    flag key v = .ok b ↔ v = .bool b := by
  constructor
  · intro run
    unfold flag at run
    split at run
    · cases run
      rfl
    · cases run
  · rintro rfl
    rfl

theorem flag_failsOnly (key : String) (v : Value) :
    (flag key v).FailsOnly Failure.IsSetting := by
  unfold flag
  split
  · exact .ok _
  · exact rejectSetting_failsOnly _

theorem mutatorField_failsOnly (key : String) (entries : Entries) :
    (mutatorField key entries).FailsOnly Failure.IsSetting := by
  unfold mutatorField
  split
  · split
    · exact rejectSetting_failsOnly _
    · exact .ok _
  · exact rejectSetting_failsOnly _

theorem mutator_failsOnly (v : Value) : (mutator v).FailsOnly Failure.IsSetting := by
  unfold mutator
  split
  · exact .ok _
  · refine .bind (mutatorField_failsOnly _ _) fun name _ => ?_
    refine .bind (mutatorField_failsOnly _ _) fun path _ => ?_
    split
    · exact .ok _
    · exact .ok _
    · exact rejectSetting_failsOnly _
  · exact rejectSetting_failsOnly _

/-- Only null says that there is no mutator. -/
theorem mutator_eq_none_iff {v : Value} : mutator v = .ok none ↔ v = .null := by
  constructor
  · intro run
    unfold mutator at run
    split at run
    · rfl
    · obtain ⟨name, -, run⟩ := Attempt.bind_eq_ok run
      obtain ⟨path, -, run⟩ := Attempt.bind_eq_ok run
      split at run <;> cases run
    · cases run
  · rintro rfl
    rfl

theorem swrOptions_failsOnly (v : Value) : (swrOptions v).FailsOnly Failure.IsSetting := by
  unfold swrOptions
  split
  · split
    · exact .ok _
    · exact .bind (checkLiteral_failsOnly (.map _) _) fun _ _ => .ok _
    · exact rejectSetting_failsOnly _
  · exact rejectSetting_failsOnly _

end Config

end ClientForge
