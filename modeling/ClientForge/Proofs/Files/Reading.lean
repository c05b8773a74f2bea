/-
# ClientForge.Proofs.Files.Reading -- why the document of a file is not read

Between a path and the document of its file there are three steps, and each has its own reasons
to stop: the path leads to no file, the bytes are no text, and the text is no document.  The last
reason is one of the format (`Unread`): JSON is given up for YAML wherever it is malformed, so a
text that is no JSON is refused as YAML, and only a number with too many digits is refused by JSON.
-/
import ClientForge.Files.Structured
import ClientForge.Proofs.Yaml.Refusals

namespace ClientForge

set_option autoImplicit false

open Attempt (FailsOnly)

namespace Json

/-- A text is malformed, or a number in it has too many digits. -/
def IsFault (fault : Fault) : Prop :=
  fault = .malformed ∨ ∃ n, Text.maxDigits < n ∧ fault = .number (.tooManyDigits n)

/-- What goes wrong is a fault. -/
def Faults {α : Type} (x : Except Fault α) : Prop := ∀ fault, x = .error fault → IsFault fault

namespace Faults

variable {α β : Type}

theorem ok (a : α) : Faults (.ok a : Except Fault α) := by
  intro fault run
  cases run

theorem malformed : Faults (Json.malformed : Except Fault α) := by
  rintro _ ⟨⟩
  exact Or.inl rfl

theorem bind {x : Except Fault α} {f : α → Except Fault β} (first : Faults x)
    (later : ∀ a, Faults (f a)) : Faults (x >>= f) := by
  intro fault run
  cases start : x with
  | error fault' =>
      rw [start] at run
      cases run
      exact first fault start
  | ok a =>
      rw [start] at run
      exact later a fault run

end Faults

theorem readUnsigned_faults (negative : Bool) (s : List Char) :
    Faults (readUnsigned negative s) := by
  unfold readUnsigned
  dsimp only
  split
  · exact .malformed
  · split
    · split
      · rename_i many
        rintro _ ⟨⟩
        exact Or.inr ⟨_, many, rfl⟩
      · exact .ok _
    · exact .ok _

theorem readPlain_faults (s : List Char) : Faults (readPlain s) := by
  unfold readPlain
  split
  · exact .ok _
  · split
    · exact readUnsigned_faults true _
    · exact readUnsigned_faults false _

theorem readQuoted_faults (s : List Char) : Faults (readQuoted s) := by
  unfold readQuoted
  split
  · exact .ok _
  · exact .malformed

theorem readers_faults (fuel : Nat) :
    (∀ s, Faults (readValue fuel s)) ∧ (∀ done s, Faults (readItems fuel done s)) ∧
      ∀ done s, Faults (readMembers fuel done s) := by
  induction fuel with
  | zero => exact ⟨fun _ => .malformed, fun _ _ => .malformed, fun _ _ => .malformed⟩
  | succ fuel ih =>
      obtain ⟨value, items, members⟩ := ih
      refine ⟨fun s => ?_, fun done s => ?_, fun done s => ?_⟩
      · unfold readValue
        split
        · exact .bind (readQuoted_faults _) fun _ => .ok _
        · split
          · exact .ok _
          · exact items _ _
        · split
          · exact .ok _
          · exact members _ _
        · intro fault run
          cases plain : readPlain s with
          | ok found =>
              rw [plain] at run
              cases run
          | error fault' =>
              rw [plain] at run
              cases run
              exact readPlain_faults s fault plain
      · unfold readItems
        refine .bind (value s) fun _ => ?_
        dsimp only
        split
        · exact items _ _
        · exact .ok _
        · exact .malformed
      · unfold readMembers
        split
        · refine .bind (readQuoted_faults _) fun _ => ?_
          dsimp only
          split
          · refine .bind (value _) fun _ => ?_
            split
            · exact members _ _
            · exact .ok _
            · exact .malformed
          · exact .malformed
        · exact .malformed

theorem read_faults (text : String) : Faults (read text) := by
  unfold read
  refine .bind ((readers_faults _).1 _) fun _ => ?_
  dsimp only
  split
  · exact .ok _
  · exact .malformed

end Json

namespace Files

/-- Why a text is no document, in the format that its ending asks for. -/
inductive Unread (ending text : String) : Failure → Prop
  | yaml {e : Failure} (refuses : Yaml.Refuses text e) : Unread ending text e
  | number {n : Nat} (json : isYamlEnding ending = false)
      (found : Json.read text = .error (.number (.tooManyDigits n))) (many : Text.maxDigits < n) :
      Unread ending text (.badInteger (.tooManyDigits n))

theorem parseStructured_failsOnly (ending text : String) :
    (parseStructured ending text).FailsOnly (Unread ending text) := by
  have yaml : (Yaml.read text).FailsOnly (Unread ending text) :=
    (Yaml.read_failsOnly text).mono fun _ => .yaml
  unfold parseStructured
  split
  · exact yaml
  · rename_i json
    split
    · exact .ok _
    · exact yaml
    · rename_i fault found
      rcases Json.read_faults text _ found with malformed | ⟨n, many, number⟩
      · cases malformed
      · cases number
        exact .error (.number (Bool.eq_false_iff.mpr json) found many)

namespace FileTable

variable {t : FileTable} {p : Path}

theorem readBytes_failsOnly : (t.readBytes p).FailsOnly fun e =>
    p.hasNull = true ∧ e = .nullInPath ∨ ∃ fault, e = .file fault p.text := by
  unfold readBytes reach
  refine .bind ?_ fun place _ => ?_
  · split
    · rename_i null
      exact .error (Or.inl ⟨null, rfl⟩)
    · cases t.locate p with
      | ok place => exact .ok place
      | error fault => exact .error (Or.inr ⟨fault, rfl⟩)
  · split
    · exact .ok _
    · split
      · exact .error (Or.inr ⟨.isFolder, rfl⟩)
      · exact .error (Or.inr ⟨.missing, rfl⟩)

/-- Why a file holds no document. -/
inductive NoDocument (t : FileTable) (p : Path) : Failure → Prop
  | null (there : p.hasNull = true) : NoDocument t p .nullInPath
  | file {fault : FileFault} (failed : t.readBytes p = .error (.file fault p.text)) :
      NoDocument t p (.file fault p.text)
  | bytes {bytes : List UInt8} {fault : Text.Utf8Fault} (found : t.readBytes p = .ok bytes)
      (noText : Text.decodeUtf8 bytes = .error fault) : NoDocument t p (.notUtf8 fault)
  | text {text : String} {e : Failure} (found : t.readText p = .ok text)
      (unread : Unread p.suffix text e) : NoDocument t p e

theorem readText_failsOnly : (t.readText p).FailsOnly (NoDocument t p) := by
  unfold readText
  refine .bind (fun e failed => ?_) fun bytes found => ?_
  · rcases readBytes_failsOnly e failed with ⟨null, rfl⟩ | ⟨fault, rfl⟩
    · exact .null null
    · exact .file failed
  · split
    · exact .ok _
    · rename_i fault noText
      exact .error (.bytes found noText)

/-- **The document of a file is missing for a reason that is found in the file.** -/
theorem readStructured_failsOnly : (t.readStructured p).FailsOnly (NoDocument t p) := by
  unfold readStructured
  refine .bind readText_failsOnly fun text found => ?_
  exact (parseStructured_failsOnly p.suffix text).mono fun _ => .text found

end FileTable

end Files

end ClientForge
