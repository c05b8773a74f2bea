/-
# ClientForge.Proofs.Text.Within -- pieces of a text

A piece stands within a text if something may stand in front of it and something behind it.
A text that is put together has everything that its parts have.

A name between two characters that belong to no word stays alone in whatever its text becomes
a part of, and a search for whole words finds it (`StandsAlone.hasWord`).  That a name stands
alone is seen on a few characters, so a long text is never searched in a proof.
-/
import ClientForge.Text.WholeWord
import Mathlib.Data.List.Basic

namespace ClientForge.Text

set_option autoImplicit false

/-- What holds of the characters of a text is decided by these alone, not by all characters. -/
instance decidableForallChars {P : Char → Prop} [DecidablePred P] (cs : List Char) :
    Decidable (∀ c ∈ cs, P c) :=
  List.decidableBAll P cs

instance decidableExistsChar {P : Char → Prop} [DecidablePred P] (cs : List Char) :
    Decidable (∃ c ∈ cs, P c) :=
  List.decidableBEx P cs

/-- The piece stands somewhere in the text. -/
def Within (piece text : String) : Prop := piece.toList <:+: text.toList

instance (piece text : String) : Decidable (Within piece text) :=
  inferInstanceAs (Decidable (_ <:+: _))

namespace Within

variable {piece part text : String}

theorem refl (text : String) : Within text text := List.infix_rfl

theorem trans (inner : Within piece part) (outer : Within part text) : Within piece text :=
  List.IsInfix.trans inner outer

theorem left (inner : Within piece part) (rest : String) : Within piece (part ++ rest) := by
  unfold Within
  rw [String.toList_append]
  exact List.IsInfix.trans inner (List.prefix_append _ _).isInfix

theorem right (inner : Within piece part) (start : String) : Within piece (start ++ part) := by
  unfold Within
  rw [String.toList_append]
  exact List.IsInfix.trans inner (List.suffix_append _ _).isInfix

/-- What stands across the start of a part stands there when the part goes on. -/
theorem across_start {start : String} (inner : Within piece (start ++ part)) (rest : String) :
    Within piece (start ++ (part ++ rest)) := by
  rw [← String.append_assoc]
  exact inner.left rest

/-- What stands across the end of a part stands there when more is in front of the part. -/
theorem across_end {rest : String} (inner : Within piece (part ++ rest)) (start : String) :
    Within piece (start ++ part ++ rest) := by
  rw [String.append_assoc]
  exact inner.right start

theorem intercalate (separator : String) {parts : List String} (member : part ∈ parts) :
    Within part (String.intercalate separator parts) := by
  induction parts with
  | nil => cases member
  | cons first rest ih =>
      cases rest with
      | nil =>
          rw [List.mem_singleton.mp member, String.intercalate_singleton]
          exact .refl first
      | cons second rest =>
          rw [String.intercalate_cons_cons]
          rcases List.mem_cons.mp member with rfl | later
          · exact ((refl part).left _).left _
          · exact (ih later).right _

theorem join {parts : List String} (member : part ∈ parts) : Within part (String.join parts) := by
  induction parts with
  | nil => cases member
  | cons first rest ih =>
      rw [String.join_cons]
      rcases List.mem_cons.mp member with rfl | later
      · exact (refl part).left _
      · exact (ih later).right _

end Within

/-! ## Beginnings -/

/-- A text begins with another. -/
def Begins (start text : String) : Prop := start.toList <+: text.toList

instance (start text : String) : Decidable (Begins start text) :=
  inferInstanceAs (Decidable (_ <+: _))

namespace Begins

variable {start text : String}

theorem refl (text : String) : Begins text text := List.prefix_rfl

theorem left (begins : Begins start text) (rest : String) : Begins start (text ++ rest) := by
  unfold Begins
  rw [String.toList_append]
  exact begins.trans (List.prefix_append _ _)

theorem right_iff (front : String) :
    Begins (front ++ start) (front ++ text) ↔ Begins start text := by
  unfold Begins
  rw [String.toList_append, String.toList_append, List.prefix_append_right_inj]

theorem right (begins : Begins start text) (front : String) :
    Begins (front ++ start) (front ++ text) := (right_iff front).mpr begins

/-- Texts that differ where both have characters begin no common text. -/
theorem not_left (apart : ¬ Begins start text ∧ ¬ Begins text start) (rest : String) :
    ¬ Begins start (text ++ rest) := by
  intro begins
  have other := (refl text).left rest
  exact (List.prefix_or_prefix_of_prefix begins other).elim apart.1 apart.2

end Begins

/-! ## Words -/

/-- A name starts and ends with a character of a word. -/
def IsWord (name : String) : Prop :=
  name.toList.head?.any isWordChar = true ∧ name.toList.getLast?.any isWordChar = true

instance (name : String) : Decidable (IsWord name) := inferInstanceAs (Decidable (_ ∧ _))

theorem hasWordFrom_append {name start rest : List Char} {before : Option Char}
    (here : startsWithWord name (start.getLast?.or before) rest = true) :
    hasWordFrom name before (start ++ rest) = true := by
  induction start generalizing before with
  | nil =>
      cases rest with
      | nil => exact here
      | cons c rest =>
          rw [List.nil_append, hasWordFrom, Bool.or_eq_true]
          exact Or.inl here
  | cons c start ih =>
      rw [List.cons_append, hasWordFrom, Bool.or_eq_true]
      refine Or.inr (ih ?_)
      have last : (c :: start).getLast?.or before = start.getLast?.or (some c) := by
        cases start <;> simp [List.getLast?_cons]
      rwa [← last]

/-- The name stands in the text between two characters that belong to no word. -/
def StandsAlone (name text : String) : Prop :=
  ∃ first last, isWordChar first = false ∧ isWordChar last = false ∧
    Within (String.ofList (first :: name.toList ++ [last])) text

theorem StandsAlone.within {name part text : String} (alone : StandsAlone name part)
    (inner : Within part text) : StandsAlone name text := by
  obtain ⟨first, last, before, after, found⟩ := alone
  exact ⟨first, last, before, after, found.trans inner⟩

/-- A name that stands alone is found as a whole word. -/
theorem StandsAlone.hasWord {name text : String} (alone : StandsAlone name text)
    (word : IsWord name) : hasWord name text = true := by
  obtain ⟨first, last, before, after, start, rest, same⟩ := alone
  rw [String.toList_ofList] at same
  have split : text.toList = (start ++ [first]) ++ (name.toList ++ last :: rest) := by
    rw [← same]
    simp
  obtain ⟨head, tail⟩ := word
  have nonempty : name.toList ≠ [] := by
    intro none
    rw [none] at head
    cases head
  unfold Text.hasWord
  rw [split]
  refine hasWordFrom_append ?_
  have opening : isBoundary (some first) (name.toList ++ last :: rest).head? = true := by
    rw [List.head?_append_of_ne_nil _ nonempty]
    simp [isBoundary, before, head]
  have closing : isBoundary name.toList.getLast? (some last) = true := by
    simp [isBoundary, after, tail]
  have ends : (name.toList.getLast?.or (some first)) = name.toList.getLast? := by
    obtain ⟨c, found⟩ := Option.isSome_iff_exists.mp (List.getLast?_isSome.mpr nonempty)
    rw [found]
    rfl
  have here : (start ++ [first]).getLast?.or none = some first := by simp
  have starts : name.toList.isPrefixOf (name.toList ++ last :: rest) = true := by simp
  rw [startsWithWord, here, ends, opening, starts, List.drop_left]
  exact closing

end ClientForge.Text
