/-
# ClientForge.Proofs.Files.Writing -- what stands in the files after writes

A text changes the bytes of the one place that its path leads to (`writeText_eq_ok`), and a
path that leads somewhere leads there after the write too (`reach_write`): the places on the
way are folders, and no text is written to a bare folder.

So after a sequence of writes every path leads where it led when its text was written.  Every
path has its text, unless a later text went to the same place (`readBytes_writeTexts`), and
the bytes of all other places are what they were (`contents?_writeTexts`).

A text that cannot be written is a fault of the file system, and no report is made of it.
-/
import ClientForge.Proofs.Data.Attempt
import ClientForge.Proofs.Files.Runs

namespace ClientForge

set_option autoImplicit false

/-- No report is made of the failure. -/
def Failure.Unreported (e : Failure) : Prop := ∀ report, e ≠ .reported report

namespace Files

open Attempt (FailsOnly)

namespace FileTable

/-! ## One write -/

section Write

variable {t after : FileTable} {place other : Place} {bytes : List UInt8} {path : Path}
  {text : String}

theorem writeText_eq_ok (run : t.writeText path text = .ok after) :
    ∃ place, t.reach path = .ok place ∧ (t.isFolder place = true → t.isFile place = true) ∧
      after = t.write place text.toUTF8.toList := by
  unfold writeText at run
  obtain ⟨place, reached, run⟩ := Attempt.bind_eq_ok run
  split at run
  · cases run
  · rename_i writable
    cases run
    refine ⟨place, reached, fun folder => ?_, rfl⟩
    simpa [folder] using writable

/-- A write takes no file away. -/
theorem exists_mem_putBytes {files : List (Place × List UInt8)} {entry : Place × List UInt8}
    (member : entry ∈ files) : ∃ kept ∈ putBytes place bytes files, kept.1 = entry.1 := by
  induction files with
  | nil => cases member
  | cons first rest ih =>
      unfold putBytes
      by_cases here : first.1 = place
      · rw [if_pos here]
        rcases List.mem_cons.mp member with rfl | later
        · exact ⟨_, List.mem_cons_self, here.symm⟩
        · exact ⟨entry, List.mem_cons_of_mem _ later, rfl⟩
      · rw [if_neg here]
        rcases List.mem_cons.mp member with rfl | later
        · exact ⟨entry, List.mem_cons_self, rfl⟩
        · obtain ⟨kept, listed, same⟩ := ih later
          exact ⟨kept, List.mem_cons_of_mem _ listed, same⟩

theorem isFolder_write (folder : t.isFolder other = true) :
    (t.write place bytes).isFolder other = true := by
  unfold isFolder at folder ⊢
  rcases Bool.or_eq_true_iff.mp folder with early | inFiles
  · exact Bool.or_eq_true_iff.mpr (Or.inl early)
  · obtain ⟨entry, member, inside⟩ := List.any_eq_true.mp inFiles
    obtain ⟨kept, listed, same⟩ :
        ∃ kept ∈ putBytes place bytes t.files, kept.1 = entry.1 := exists_mem_putBytes member
    refine Bool.or_eq_true_iff.mpr (Or.inr (List.any_eq_true.mpr ⟨kept, listed, ?_⟩))
    rw [same]
    exact inside

theorem isFile_write_of_ne (ne : other ≠ place) :
    (t.write place bytes).isFile other = t.isFile other :=
  congrArg Option.isSome (contents?_write_of_ne t ne bytes)

/-- A walk goes the same way after a write, unless a bare folder was written to. -/
theorem walk_write {here : Place} {parts : List String}
    (writable : t.isFolder place = true → t.isFile place = true)
    (run : t.walk here parts = .ok other) : (t.write place bytes).walk here parts = .ok other := by
  induction parts generalizing here with
  | nil => exact run
  | cons part rest ih =>
      rw [walk] at run
      split at run
      · cases run
      · rename_i noFile
        split at run
        · cases run
        · rename_i folder
          have isFolder : t.isFolder here = true := by simpa using folder
          have elsewhere : here ≠ place := by
            rintro rfl
            exact noFile (writable isFolder)
          rw [walk, isFile_write_of_ne elsewhere, if_neg noFile, isFolder_write isFolder]
          split at run
          · rename_i up
            simpa [up] using ih run
          · rename_i down
            split at run
            · cases run
            · rename_i short
              simpa [down, short] using ih run

theorem reach_eq_ok (run : t.reach path = .ok place) :
    path.hasNull = false ∧ path.text.utf8ByteSize ≤ longestPath ∧
      t.walk (if path.absolute then [] else t.workdir) path.parts = .ok place := by
  unfold reach locate at run
  split at run
  · cases run
  · rename_i clean
    split at run
    · cases run
    · rename_i short
      refine ⟨by simpa using clean, Nat.not_lt.mp short, ?_⟩
      cases walked : t.walk (if path.absolute then [] else t.workdir) path.parts with
      | error fault =>
          rw [walked] at run
          cases run
      | ok found =>
          rw [walked] at run
          exact congrArg _ (Except.ok.inj run)

theorem reach_write (writable : t.isFolder place = true → t.isFile place = true)
    (run : t.reach path = .ok other) : (t.write place bytes).reach path = .ok other := by
  obtain ⟨clean, short, walked⟩ := reach_eq_ok run
  unfold reach locate
  rw [clean, if_neg Bool.false_ne_true, if_neg (Nat.not_lt.mpr short)]
  rw [show (t.write place bytes).workdir = t.workdir from rfl, walk_write writable walked]
  rfl

theorem readBytes_of_contents (reached : t.reach path = .ok place)
    (holds : t.contents? place = some bytes) : t.readBytes path = .ok bytes := by
  unfold readBytes
  rw [reached]
  dsimp only [bind, Except.bind]
  rw [holds]

theorem contents?_of_readBytes (reached : t.reach path = .ok place)
    (read : t.readBytes path = .ok bytes) : t.contents? place = some bytes := by
  unfold readBytes at read
  rw [reached] at read
  dsimp only [bind, Except.bind] at read
  split at read
  · rename_i found holds
    cases read
    exact holds
  · split at read
    · cases read
    · cases read

end Write

/-! ## Sequences of writes -/

section Writes

variable {t after : FileTable} {place other : Place} {path : Path} {text : String}
  {entries : List (Path × String)}

theorem writeTexts_cons (run : t.writeTexts ((path, text) :: entries) = .ok after) :
    ∃ between, t.writeText path text = .ok between ∧ between.writeTexts entries = .ok after := by
  unfold writeTexts at run
  rw [List.foldlM_cons] at run
  exact Attempt.bind_eq_ok run

/-- A path leads where it led before the writes. -/
theorem reach_writeTexts (run : t.writeTexts entries = .ok after)
    (reached : t.reach path = .ok place) : after.reach path = .ok place := by
  refine Attempt.foldlM_keeps (P := fun u => u.reach path = .ok place) ?_ run reached
  intro entry _ u v written before
  obtain ⟨there, -, writable, rfl⟩ := writeText_eq_ok written
  exact reach_write writable before

/-- The bytes of a place that none of the paths leads to are what they were. -/
theorem contents?_writeTexts (run : t.writeTexts entries = .ok after)
    (elsewhere : ∀ entry ∈ entries, after.reach entry.1 ≠ .ok other) :
    after.contents? other = t.contents? other := by
  induction entries generalizing t with
  | nil =>
      cases run
      rfl
  | cons entry rest ih =>
      obtain ⟨path, text⟩ := entry
      obtain ⟨between, written, later⟩ := writeTexts_cons run
      rw [ih later fun entry member => elsewhere entry (List.mem_cons_of_mem _ member)]
      obtain ⟨there, reached, writable, rfl⟩ := writeText_eq_ok written
      refine contents?_write_of_ne t ?_ _
      rintro rfl
      exact elsewhere _ List.mem_cons_self
        (reach_writeTexts later (reach_write writable reached))

/-- Every path has its text, if all texts that go to one place are the same. -/
theorem readBytes_writeTexts (run : t.writeTexts entries = .ok after)
    (agree : ∀ entry ∈ entries, ∀ entry' ∈ entries, ∀ place, after.reach entry.1 = .ok place →
      after.reach entry'.1 = .ok place → entry.2 = entry'.2) :
    ∀ entry ∈ entries, after.readBytes entry.1 = .ok entry.2.toUTF8.toList := by
  induction entries generalizing t with
  | nil =>
      intro entry member
      cases member
  | cons entry rest ih =>
      obtain ⟨path, text⟩ := entry
      obtain ⟨between, written, later⟩ := writeTexts_cons run
      have behind := ih later fun entry member entry' member' =>
        agree entry (List.mem_cons_of_mem _ member) entry' (List.mem_cons_of_mem _ member')
      rintro entry member
      rcases List.mem_cons.mp member with rfl | member
      · obtain ⟨place, reached, writable, rfl⟩ := writeText_eq_ok written
        have leads : after.reach path = .ok place :=
          reach_writeTexts later (reach_write writable reached)
        refine readBytes_of_contents leads ?_
        -- A later text at the same place is this text; without one the place is left alone.
        by_cases again : ∃ entry' ∈ rest, after.reach entry'.1 = .ok place
        · obtain ⟨entry', member', leads'⟩ := again
          have same : text = entry'.2 :=
            agree _ List.mem_cons_self _ (List.mem_cons_of_mem _ member') place leads leads'
          dsimp only
          rw [same]
          exact contents?_of_readBytes leads' (behind entry' member')
        · rw [contents?_writeTexts later fun entry' member' leads' =>
            again ⟨entry', member', leads'⟩]
          exact contents?_write_self t place _
      · exact behind entry member

end Writes

/-! ## Paths that can be written to -/

section CanWrite

variable {t changed : FileTable} {place : Place} {path other : Path} {text : String}

/-- A text can be written to the path: it leads somewhere, and not to a bare folder. -/
def CanWrite (t : FileTable) (path : Path) : Prop :=
  ∃ place, t.reach path = .ok place ∧ (t.isFolder place = true → t.isFile place = true)

theorem CanWrite.exists_writeText (can : t.CanWrite path) (text : String) :
    ∃ after, t.writeText path text = .ok after := by
  obtain ⟨place, reached, writable⟩ := can
  refine ⟨t.write place text.toUTF8.toList, ?_⟩
  unfold writeText
  rw [reached]
  dsimp only [bind, Except.bind]
  refine if_neg fun bare => ?_
  obtain ⟨folder, noFile⟩ := Bool.and_eq_true_iff.mp bare
  rw [writable folder] at noFile
  cases noFile

/-- Whatever lies above a place is a folder. -/
def FoldersAbove (t : FileTable) (place : Place) : Prop :=
  ∀ q, q <+: place → q ≠ place → t.isFolder q = true

theorem FoldersAbove.dropLast (above : t.FoldersAbove place) : t.FoldersAbove place.dropLast := by
  intro q part other
  refine above q (part.trans (List.dropLast_prefix place)) fun same => other ?_
  subst same
  exact part.eq_of_length (Nat.le_antisymm part.length_le (List.dropLast_prefix q).length_le)

theorem FoldersAbove.down (above : t.FoldersAbove place) (folder : t.isFolder place = true)
    (name : String) : t.FoldersAbove (place ++ [name]) := by
  intro q part other
  rcases List.prefix_concat_iff.mp part with same | part
  · exact absurd same other
  · by_cases same : q = place
    · exact same ▸ folder
    · exact above q part same

/-- A walk goes through folders, so there are folders above its end. -/
theorem walk_foldersAbove {here : Place} {parts : List String} (above : t.FoldersAbove here)
    (run : t.walk here parts = .ok place) : t.FoldersAbove place := by
  induction parts generalizing here with
  | nil =>
      cases run
      exact above
  | cons part rest ih =>
      rw [walk] at run
      split at run
      · cases run
      · split at run
        · cases run
        · rename_i folder
          split at run
          · exact ih above.dropLast run
          · split at run
            · cases run
            · exact ih (above.down (by simpa using folder) part) run

theorem reach_foldersAbove (run : t.reach path = .ok place) : t.FoldersAbove place := by
  obtain ⟨-, -, walked⟩ := reach_eq_ok run
  refine walk_foldersAbove (fun q part other => ?_) walked
  split at part
  · rename_i absolute
    rw [if_pos absolute] at other
    exact absurd (List.prefix_nil.mp part) other
  · have inside : q.isPrefixOf t.workdir = true := List.isPrefixOf_iff_prefix.mpr part
    simp [isFolder, inside]

theorem mem_putBytes {bytes : List UInt8} {files : List (Place × List UInt8)}
    {entry : Place × List UInt8} (member : entry ∈ putBytes place bytes files) :
    entry.1 = place ∨ entry ∈ files := by
  induction files with
  | nil => exact Or.inl (congrArg Prod.fst (List.mem_singleton.mp member))
  | cons first rest ih =>
      unfold putBytes at member
      split at member
      · rcases List.mem_cons.mp member with rfl | later
        · exact Or.inl rfl
        · exact Or.inr (List.mem_cons_of_mem _ later)
      · rcases List.mem_cons.mp member with rfl | later
        · exact Or.inr List.mem_cons_self
        · exact (ih later).imp_right (List.mem_cons_of_mem _)

/-- A write makes no folder, if there are folders above its place. -/
theorem isFolder_of_write {bytes : List UInt8} {q : Place} (above : t.FoldersAbove place)
    (folder : (t.write place bytes).isFolder q = true) : t.isFolder q = true := by
  unfold isFolder at folder
  rcases Bool.or_eq_true_iff.mp folder with early | inFiles
  · exact Bool.or_eq_true_iff.mpr (Or.inl early)
  · obtain ⟨entry, member, inside⟩ := List.any_eq_true.mp inFiles
    rcases mem_putBytes member with same | old
    · rw [same] at inside
      obtain ⟨part, other⟩ := Bool.and_eq_true_iff.mp inside
      refine above q (List.isPrefixOf_iff_prefix.mp part) fun equal => ?_
      simp [equal] at other
    · exact Bool.or_eq_true_iff.mpr (Or.inr (List.any_eq_true.mpr ⟨entry, old, inside⟩))

/-- What can be written to can still be written to after a write. -/
theorem CanWrite.after (can : t.CanWrite other) (run : t.writeText path text = .ok changed) :
    changed.CanWrite other := by
  obtain ⟨place, reached, writable, rfl⟩ := writeText_eq_ok run
  obtain ⟨there, leads, free⟩ := can
  refine ⟨there, reach_write writable leads, fun folder => ?_⟩
  by_cases same : there = place
  · subst same
    simp [isFile]
  · rw [isFile_write_of_ne same]
    exact free (isFolder_of_write (reach_foldersAbove reached) folder)

end CanWrite

/-! ## Folders -/

theorem makeFolder_go_eq_ok {p : Path} {t made : FileTable} {here : Place} {parts : List String}
    (run : makeFolder.go p t here parts = .ok made) : made.files = t.files := by
  induction parts generalizing t here with
  | nil =>
      rw [makeFolder.go] at run
      split at run
      · cases run
      · split at run
        · cases run
          rfl
        · cases run
          rfl
  | cons part rest ih =>
      rw [makeFolder.go] at run
      split at run
      · cases run
      · dsimp only at run
        split at run
        · cases run
        · rw [ih run]
          split
          · rfl
          · rfl

/-- A folder is no file. -/
theorem makeFolder_eq_ok {p : Path} {t made : FileTable} (run : t.makeFolder p = .ok made) :
    made.files = t.files := by
  unfold makeFolder at run
  split at run
  · cases run
  · split at run
    · cases run
    · exact makeFolder_go_eq_ok run

/-! ## Last names -/

/-- A walk over a name that is no double dot ends at it. -/
theorem walk_concat {t : FileTable} {here place : Place} {parts : List String} {name : String}
    (down : name ≠ "..") (run : t.walk here (parts ++ [name]) = .ok place) :
    ∃ folder, place = folder ++ [name] := by
  induction parts generalizing here with
  | nil =>
      rw [List.nil_append, walk] at run
      split at run
      · cases run
      · split at run
        · cases run
        · split at run
          · cases run
          · cases run
            exact ⟨here, rfl⟩
  | cons part rest ih =>
      rw [List.cons_append, walk] at run
      split at run
      · cases run
      · split at run
        · cases run
        · split at run
          · exact ih run
          · split at run
            · cases run
            · exact ih run

/-- A file in a folder is reached under its own name. -/
theorem reach_join {t : FileTable} {base : Path} {place : Place} {name : String}
    (down : name ≠ "..") (run : t.reach (base.join ⟨false, [name]⟩) = .ok place) :
    ∃ folder, place = folder ++ [name] :=
  walk_concat down (reach_eq_ok run).2.2

/-! ## Failures -/

section Failures

variable {t : FileTable} {path : Path}

theorem reach_failsOnly : FailsOnly Failure.Unreported (t.reach path) := by
  unfold reach
  split
  · exact .error nofun
  · cases t.locate path with
    | error fault => exact .error nofun
    | ok place => exact .ok place

theorem writeText_failsOnly (text : String) :
    FailsOnly Failure.Unreported (t.writeText path text) := by
  refine .bind reach_failsOnly fun place _ => ?_
  split
  · exact .error nofun
  · exact .ok _

end Failures

end FileTable

end Files

end ClientForge
