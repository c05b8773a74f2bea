/-
# ClientForge.Proofs.Config.Loading -- what comes of a file with settings

Loading settings ends in one of two ways, settings or an error of the settings, whatever the
path leads to and whatever the file holds.  The exceptions are known: a path with a null character,
bytes that are no text, and a text with something that has the form of a number, a date or a
character and is none (`Escapes`).  Each of them is a failure that comes from below the settings and
that loading does not take for one of the settings (`load_escapes`).

What carries this is that reading the settings of a map fails for no other reason than a setting
(`ofValue_failsOnly`).  What passes has a literal form at every depth wherever it ends up in the
code (`HoldsLiterals`).
-/
import ClientForge.Proofs.Config.Layers
import ClientForge.Proofs.Files.Reading
import ClientForge.Proofs.Files.Writing

namespace ClientForge.Config

set_option autoImplicit false

open Attempt (FailsOnly)
open Files (FileTable Path Unread)

/-! ## Reading the settings of a map -/

theorem forM_failsOnly {α : Type} {reasons : Failure → Prop} {f : α → Attempt PUnit} {xs : List α}
    (each : ∀ x ∈ xs, (f x).FailsOnly reasons) : (xs.forM f).FailsOnly reasons := by
  induction xs with
  | nil => exact .ok PUnit.unit
  | cons x rest ih =>
      obtain ⟨first, later⟩ := List.forall_mem_cons.mp each
      exact .bind first fun _ _ => ih later

theorem checkOperation_failsOnly (override : Override) (id : Scalar) (raw : Entries) :
    (checkOperation override id (.map raw)).FailsOnly Failure.IsSetting := by
  rw [checkOperation_map]
  split
  · exact rejectSetting_failsOnly _
  · exact (applySettings_failsOnly override raw).map

/-- Whatever a map holds, its settings are read or there is an error of the settings. -/
theorem ofValue_failsOnly (entries : Entries) :
    (ofValue (.map entries)).FailsOnly Failure.IsSetting := by
  unfold ofValue
  refine .bind (.ok entries) fun fields _ => ?_
  split
  · rename_i raw _
    split
    · rename_i operations _
      split
      · rename_i maps
        refine .bind (applySettings_failsOnly _ raw) fun override _ => ?_
        refine .bind (forM_failsOnly fun entry member => ?_) fun _ _ => .ok _
        have isMap := List.all_eq_true.mp maps entry member
        obtain ⟨k, v⟩ := entry
        cases v with
        | map own => exact checkOperation_failsOnly override k own
        | atom a => cases isMap
        | list items => cases isMap
      · exact rejectSetting_failsOnly _
    · exact rejectSetting_failsOnly _
  · exact rejectSetting_failsOnly _

/-! ## What is accepted -/

/-- Settings whose request options and hook options can be written in code. -/
structure AcceptsLiterals (raw : Entries) : Prop where
  requestOptions : ∀ v, raw.get? "requestOptions" = some v →
    (∃ b, v = .bool b) ∨ (∃ options, v = .map options) ∧ HasLiteralForm v
  swrOptions : ∀ v, raw.get? "swr" = some v → ∃ fields : Entries, v = .map fields ∧
    ∀ options, fields.get? "options" = some options →
      options = .null ∨ (∃ members, options = .map members) ∧ HasLiteralForm options

/-- All settings of a document that was read, and what they amount to for all operations, can be
written in code. -/
structure HoldsLiterals (data : Value) (config : Config) : Prop where
  globals : AcceptsLiterals (globalSettings data)
  operations : ∀ entry ∈ operationSettings data, ∃ raw, entry.2 = .map raw ∧ AcceptsLiterals raw
  requestOptions : ∀ options, config.override.requestOptions = .preset options →
    HasLiteralForm (.map options)
  swrOptions : ∀ options, config.override.swrOptions = some options →
    HasLiteralForm (.map options)

theorem MeansRequestOptions.literal {v : Value} {r : RequestOptions}
    (means : MeansRequestOptions v r) :
    ((∃ b, v = .bool b) ∨ (∃ options, v = .map options) ∧ HasLiteralForm v) ∧
      ∀ options, r = .preset options → HasLiteralForm (.map options) := by
  cases means with
  | allowed flag => exact ⟨Or.inl ⟨flag, rfl⟩, fun _ impossible => by cases impossible⟩
  | preset form =>
      refine ⟨Or.inr ⟨⟨_, rfl⟩, form⟩, ?_⟩
      rintro _ ⟨⟩
      exact form

/-- Hook options are read from a map that has none, or has a map that can be written in code. -/
theorem swrOptions_literal {v : Value} {options? : Option Entries}
    (run : Config.swrOptions v = .ok options?) :
    (∃ fields : Entries, v = .map fields ∧ ∀ options, fields.get? "options" = some options →
      options = .null ∨ (∃ members, options = .map members) ∧ HasLiteralForm options) ∧
      ∀ options, options? = some options → HasLiteralForm (.map options) := by
  unfold Config.swrOptions at run
  split at run
  · rename_i fields
    cases found : Entries.get? "options" fields with
    | none =>
        rw [found] at run
        cases run
        refine ⟨⟨fields, rfl, fun options there => ?_⟩, fun _ impossible => by cases impossible⟩
        rw [found] at there
        cases there
    | some given =>
        rw [found, Option.bind_some] at run
        split at run
        · rename_i none
          cases run
          refine ⟨⟨fields, rfl, fun options there => ?_⟩, fun _ impossible => by cases impossible⟩
          obtain rfl : given = options := Option.some.inj (found.symm.trans there)
          refine Or.inl ?_
          cases given with
          | atom a =>
              cases a with
              | null => rfl
              | _ => cases none
          | list items => cases none
          | map members => cases none
        · rename_i members present
          obtain ⟨_, checked, run⟩ := Attempt.bind_eq_ok run
          cases run
          have same : given = .map members := by
            unfold Value.present? at present
            split at present
            · cases present
            · exact Option.some.inj present
          have form : HasLiteralForm (.map members) :=
            (checkLiteral_eq_ok_iff (.map members) "swr.options").mp checked
          refine ⟨⟨fields, rfl, fun options there => ?_⟩, ?_⟩
          · obtain rfl : given = options := Option.some.inj (found.symm.trans there)
            exact Or.inr ⟨⟨members, same⟩, same ▸ form⟩
          · rintro _ ⟨⟩
            exact form
        · cases run
  · cases run

/-- What is applied without an error can be written in code, and so can what comes of it. -/
theorem Applied.literal {base o : Override} {raw : Entries} (applied : Applied base raw o) :
    AcceptsLiterals raw ∧
      ((∀ options, base.requestOptions = .preset options → HasLiteralForm (.map options)) →
        ∀ options, o.requestOptions = .preset options → HasLiteralForm (.map options)) ∧
      ((∀ options, base.swrOptions = some options → HasLiteralForm (.map options)) →
        ∀ options, o.swrOptions = some options → HasLiteralForm (.map options)) := by
  have request := applied.requestOptions
  have swr := applied.swrOptions
  unfold Decided at request swr
  refine ⟨⟨fun v there => ?_, fun v there => ?_⟩, fun before => ?_, fun before => ?_⟩
  · rw [there] at request
    exact (MeansRequestOptions.literal request).1
  · rw [there] at swr
    exact (swrOptions_literal swr).1
  · cases found : raw.get? "requestOptions" with
    | none =>
        rw [found] at request
        have kept : o.requestOptions = base.requestOptions := request
        rw [kept]
        exact before
    | some v =>
        rw [found] at request
        exact (MeansRequestOptions.literal request).2
  · cases found : raw.get? "swr" with
    | none =>
        rw [found] at swr
        have kept : o.swrOptions = base.swrOptions := swr
        rw [kept]
        exact before
    | some v =>
        rw [found] at swr
        exact (swrOptions_literal swr).2

theorem ofValue_holdsLiterals {data : Value} {config : Config} (run : ofValue data = .ok config) :
    HoldsLiterals data config := by
  obtain ⟨globals, operations, -⟩ := ofValue_eq_ok run
  obtain ⟨accepts, request, swr⟩ := (applySettings_eq_ok globals).literal
  constructor
  case globals => exact accepts
  case operations =>
    intro entry member
    obtain ⟨raw, same, -, o, applied⟩ := operations entry member
    exact ⟨raw, same, (applySettings_eq_ok applied).literal.1⟩
  case requestOptions =>
    refine request fun options preset => ?_
    cases preset
  case swrOptions =>
    refine swr fun options given => ?_
    cases given

/-! ## Loading a file -/

/-- Why loading settings ends with something else than an error of the settings. -/
inductive Escapes (files : FileTable) (path : String) : Failure → Prop
  | null (there : (Path.ofText path).hasNull = true) : Escapes files path .nullInPath
  | bytes {bytes : List UInt8} {fault : Text.Utf8Fault}
      (found : files.readBytes (.ofText path) = .ok bytes)
      (noText : Text.decodeUtf8 bytes = .error fault) : Escapes files path (.notUtf8 fault)
  | text {text : String} {e : Failure} (found : files.readText (.ofText path) = .ok text)
      (unread : Unread (Path.ofText path).suffix text e) (unreported : e.Unreported) :
      Escapes files path e

/-- What loading does not take for an error of the settings is a failure of the file. -/
theorem load_failsOnly (files : FileTable) (path : String) :
    (load files path).FailsOnly fun e => e.IsSetting ∨ Escapes files path e := by
  have setting {α : Type} {x : Attempt α} (fails : x.FailsOnly Failure.IsSetting) :
      x.FailsOnly fun e => e.IsSetting ∨ Escapes files path e := fails.mono fun _ => Or.inl
  unfold load
  split
  · exact setting (rejectSetting_failsOnly _)
  · exact setting (rejectSetting_failsOnly _)
  · rename_i e noReport noFile failed
    refine .error (Or.inr ?_)
    cases FileTable.readStructured_failsOnly e failed with
    | null there => exact .null there
    | @file fault _ => exact absurd rfl (noFile fault _)
    | bytes found noText => exact .bytes found noText
    | text found unread => exact .text found unread noReport
  · exact .ok _
  · exact setting (ofValue_failsOnly _)
  · exact setting (rejectSetting_failsOnly _)

/-- What was loaded are no settings, or those of a document. -/
theorem load_eq_ok {files : FileTable} {path : String} {config : Config}
    (run : load files path = .ok config) :
    files.readStructured (.ofText path) = .ok .null ∧ config = {} ∨
      ∃ entries, files.readStructured (.ofText path) = .ok (.map entries) ∧
        ofValue (.map entries) = .ok config := by
  unfold load at run
  split at run
  · cases run
  · cases run
  · cases run
  · rename_i empty
    cases run
    exact Or.inl ⟨empty, rfl⟩
  · rename_i entries found
    exact Or.inr ⟨entries, found, run⟩
  · cases run

/-- A file with settings whose only byte begins no character. -/
def garbled : FileTable := ⟨[], [(["config.json"], [0xff])], []⟩

end ClientForge.Config
