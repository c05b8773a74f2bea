/-
# ClientForge.Proofs.Text.Pieces -- what is in the pieces of a text

A text that is cut at a character has this character in none of its pieces, and everything else
in one of them.  Where the character stands between two texts, the pieces are those of the one
and behind them those of the other.
-/
import ClientForge.Text.Pieces
import Mathlib.Data.List.Basic

namespace ClientForge.Text

set_option autoImplicit false

theorem splitOn_of_not_mem {separator : Char} {s : List Char} (absent : separator ∉ s) :
    splitOn separator s = [s] := by
  induction s with
  | nil => rfl
  | cons c rest ih =>
      rw [List.mem_cons, not_or] at absent
      rw [splitOn, if_neg (Ne.symm absent.1), ih absent.2]

theorem splitOn_append (separator : Char) (s t : List Char) :
    splitOn separator (s ++ separator :: t) =
      splitOn separator s ++ splitOn separator t := by
  induction s with
  | nil => simp [splitOn]
  | cons c rest ih =>
      by_cases h : c = separator
      · simp [splitOn, h, ih]
      · rw [List.cons_append, splitOn, if_neg h, ih, splitOn, if_neg h]
        cases split : splitOn separator rest with
        | nil => exact absurd split (splitOn_ne_nil separator rest)
        | cons piece pieces => rfl

theorem mem_splitOn {separator : Char} {s piece : List Char} {c : Char}
    (member : piece ∈ splitOn separator s) (inside : c ∈ piece) : c ∈ s ∧ c ≠ separator := by
  induction s generalizing piece with
  | nil =>
      rw [splitOn, List.mem_singleton] at member
      rw [member] at inside
      cases inside
  | cons d rest ih =>
      by_cases cut : d = separator
      · rw [splitOn, if_pos cut] at member
        rcases List.mem_cons.mp member with rfl | later
        · cases inside
        · obtain ⟨there, other⟩ := ih later inside
          exact ⟨List.mem_cons_of_mem _ there, other⟩
      · rw [splitOn, if_neg cut] at member
        cases pieces : splitOn separator rest with
        | nil => exact absurd pieces (splitOn_ne_nil separator rest)
        | cons first others =>
            rw [pieces] at member ih
            rcases List.mem_cons.mp member with rfl | later
            · rcases List.mem_cons.mp inside with rfl | behind
              · exact ⟨List.mem_cons_self, cut⟩
              · obtain ⟨there, other⟩ := ih List.mem_cons_self behind
                exact ⟨List.mem_cons_of_mem _ there, other⟩
            · obtain ⟨there, other⟩ := ih (List.mem_cons_of_mem _ later) inside
              exact ⟨List.mem_cons_of_mem _ there, other⟩

theorem exists_mem_splitOn {separator : Char} {s : List Char} {c : Char} (there : c ∈ s)
    (other : c ≠ separator) : ∃ piece ∈ splitOn separator s, c ∈ piece := by
  rw [← joinWith_splitOn separator s] at there
  generalize splitOn separator s = pieces at there ⊢
  induction pieces with
  | nil => cases there
  | cons piece rest ih =>
      cases rest with
      | nil => exact ⟨piece, List.mem_cons_self, there⟩
      | cons second rest =>
          rw [joinWith] at there
          · rcases List.mem_append.mp there with here | later
            · exact ⟨piece, List.mem_cons_self, here⟩
            · rcases List.mem_cons.mp later with same | behind
              · exact absurd same other
              · obtain ⟨found, member, inside⟩ := ih behind
                exact ⟨found, List.mem_cons_of_mem _ member, inside⟩
          · exact List.cons_ne_nil _ _

end ClientForge.Text
