/-
# ClientForge.Proofs.Text.Words -- whole words in texts that are put together

Where two texts meet, a new word can come about only if a word of the one runs into a word of
the other.  If one of the two has no character of a word at the seam, a name stands in both
together exactly if it stands in one of them (`hasWord_append`).

Most of a rendered text is fixed.  So that such a text does not mention a name follows piece by
piece (`Avoids`): what is fixed is looked through, and what is not has to avoid the name by
itself.  The seams are those of the fixed pieces.
-/
import ClientForge.Proofs.Text.Within

namespace ClientForge.Text

set_option autoImplicit false

/-- A name is a word if it has characters, and all of them are characters of words. -/
def IsName (name : String) : Prop := name.toList ≠ [] ∧ ∀ c ∈ name.toList, isWordChar c = true

instance (name : String) : Decidable (IsName name) := inferInstanceAs (Decidable (_ ∧ _))

/-- No character of a word is there. -/
def isOpen (c : Option Char) : Bool := !c.any isWordChar

/-- One of two neighbours is no character of a word. -/
def IsSeam (before after : Option Char) : Prop := isOpen before = true ∨ isOpen after = true

section Search

variable {name : List Char} {before : Option Char} {first second : List Char}

theorem startsWithWord_nil (some : name ≠ []) : startsWithWord name before [] = false := by
  have no : name.isPrefixOf [] = false := by
    cases name with
    | nil => exact absurd rfl some
    | cons c rest => rfl
  rw [startsWithWord, no]
  rfl

/-- Whether a name stands at the start of a text is seen in front of a seam. -/
theorem startsWithWord_append (some : name ≠ []) (word : ∀ c ∈ name, isWordChar c = true)
    (nonempty : first ≠ []) (seam : IsSeam first.getLast? second.head?) :
    startsWithWord name before (first ++ second) = startsWithWord name before first := by
  have last : name.getLast?.any isWordChar = true := by
    rw [List.getLast?_eq_some_getLast some]
    exact word _ (List.getLast_mem some)
  have or : name.getLast?.or before = name.getLast? := by
    rw [List.getLast?_eq_some_getLast some]
    rfl
  unfold startsWithWord
  rw [List.head?_append_of_ne_nil _ nonempty, or]
  by_cases here : name <+: first
  · obtain ⟨rest, rfl⟩ := here
    have inBoth : name.isPrefixOf (name ++ rest ++ second) = true := by simp
    have inFirst : name.isPrefixOf (name ++ rest) = true := by simp
    rw [inBoth, inFirst, List.append_assoc, List.drop_left, List.drop_left]
    cases rest with
    | cons c rest => rfl
    | nil =>
        -- the name is all of the first text, so the seam is open behind it
        have isOpen : isOpen second.head? = true := by
          rcases seam with before | after
          · rw [List.append_nil] at before
            simp [Text.isOpen, last] at before
          · exact after
        have after : second.head?.any isWordChar = false := by
          simpa [Text.isOpen] using isOpen
        simp [isBoundary, last, after]
  · have inFirst : name.isPrefixOf first = false := by
      rw [Bool.eq_false_iff, ne_eq, List.isPrefixOf_iff_prefix]
      exact here
    have inBoth : name.isPrefixOf (first ++ second) = false := by
      rw [Bool.eq_false_iff, ne_eq, List.isPrefixOf_iff_prefix]
      intro reaches
      rcases List.prefix_or_prefix_of_prefix reaches (List.prefix_append first second) with
        inside | ⟨rest, rfl⟩
      · exact here inside
      · -- the name would run across the seam
        have later : rest <+: second := (List.prefix_append_right_inj first).mp reaches
        cases rest with
        | nil => exact here (by simp)
        | cons c rest =>
            have closing : isWordChar (first.getLast nonempty) = true :=
              word _ (List.mem_append_left _ (List.getLast_mem nonempty))
            have opening : isWordChar c = true := word c (by simp)
            obtain ⟨tail, rfl⟩ := later
            rcases seam with before | after
            · rw [List.getLast?_eq_some_getLast nonempty] at before
              simp [isOpen, closing] at before
            · simp [isOpen, opening] at after
    rw [inFirst, inBoth]
    rfl

/-- A name that stands in a text is a piece of it. -/
theorem infix_of_hasWordFrom (found : hasWordFrom name before first = true) :
    name <:+: first := by
  have start : ∀ {before s}, startsWithWord name before s = true → name <:+: s := by
    intro before s here
    unfold startsWithWord at here
    simp only [Bool.and_eq_true, List.isPrefixOf_iff_prefix] at here
    exact here.1.1.isInfix
  induction first generalizing before with
  | nil => exact start found
  | cons c rest ih =>
      rw [hasWordFrom, Bool.or_eq_true] at found
      rcases found with here | later
      · exact start here
      · exact (ih later).trans (List.suffix_cons c rest).isInfix

/-- What stands in front of a text matters only if a word could run on. -/
theorem hasWordFrom_of_isSeam (some : name ≠ []) (word : ∀ c ∈ name, isWordChar c = true)
    (seam : IsSeam before second.head?) :
    hasWordFrom name before second = hasWordFrom name none second := by
  have same : startsWithWord name before second = startsWithWord name none second := by
    obtain ⟨c, rest, rfl⟩ := List.exists_cons_of_ne_nil some
    cases second with
    | nil => rw [startsWithWord_nil some, startsWithWord_nil some]
    | cons d tail =>
        by_cases here : (c :: rest) <+: d :: tail
        · obtain rfl : c = d := (List.cons_prefix_cons.mp here).1
          have head : isWordChar c = true := word c List.mem_cons_self
          have outside : before.any isWordChar = false := by
            rcases seam with before | after
            · simpa [isOpen] using before
            · simp [isOpen, head] at after
          have last : (c :: rest).getLast?.or before = (c :: rest).getLast?.or none := by
            rw [List.getLast?_eq_some_getLast some]
            rfl
          unfold startsWithWord isBoundary
          rw [last, outside]
          rfl
        · have no : (c :: rest).isPrefixOf (d :: tail) = false := by
            rw [Bool.eq_false_iff, ne_eq, List.isPrefixOf_iff_prefix]
            exact here
          unfold startsWithWord
          rw [no]
          rfl
  cases second with
  | nil => exact same
  | cons d tail => rw [hasWordFrom, hasWordFrom, same]

theorem hasWordFrom_append_of_isSeam (some : name ≠ [])
    (word : ∀ c ∈ name, isWordChar c = true)
    (seam : IsSeam (first.getLast?.or before) second.head?) :
    hasWordFrom name before (first ++ second) =
      (hasWordFrom name before first || hasWordFrom name none second) := by
  induction first generalizing before with
  | nil =>
      have none : hasWordFrom name before [] = false := startsWithWord_nil some
      rw [List.nil_append, none, Bool.false_or]
      exact hasWordFrom_of_isSeam some word seam
  | cons c first ih =>
      have last : (c :: first).getLast?.or before = first.getLast?.or (.some c) := by
        cases first <;> simp [List.getLast?_cons]
      have here : IsSeam (c :: first).getLast? second.head? := by
        rw [last] at seam
        have same : (c :: first).getLast? = first.getLast?.or (.some c) := by
          cases first <;> simp [List.getLast?_cons]
        rwa [same]
      rw [last] at seam
      rw [List.cons_append, hasWordFrom, ih seam, hasWordFrom, ← Bool.or_assoc]
      rw [← List.cons_append, startsWithWord_append some word (List.cons_ne_nil _ _) here]

end Search

/-- No word crosses a seam. -/
theorem hasWord_append {name first second : String} (word : IsName name)
    (seam : IsSeam first.toList.getLast? second.toList.head?) :
    hasWord name (first ++ second) = (hasWord name first || hasWord name second) := by
  unfold hasWord
  rw [String.toList_append]
  refine hasWordFrom_append_of_isSeam word.1 word.2 ?_
  rwa [Option.or_none]

/-! ## Texts without a name -/

/-- The name does not stand in the text. -/
def Avoids (name text : String) : Prop := hasWord name text = false

instance (name text : String) : Decidable (Avoids name text) :=
  inferInstanceAs (Decidable (_ = _))

/-- A text that no word runs into. -/
def StartsOpen (text : String) : Prop := isOpen text.toList.head? = true

/-- A text that no word runs out of. -/
def EndsOpen (text : String) : Prop := isOpen text.toList.getLast? = true

instance (text : String) : Decidable (StartsOpen text) := inferInstanceAs (Decidable (_ = _))
instance (text : String) : Decidable (EndsOpen text) := inferInstanceAs (Decidable (_ = _))

theorem EndsOpen.append {last : String} (first : String) (nonempty : last ≠ "")
    (isOpen : EndsOpen last) : EndsOpen (first ++ last) := by
  unfold EndsOpen
  rw [String.toList_append, List.getLast?_append_of_ne_nil]
  · exact isOpen
  · simpa using nonempty

theorem StartsOpen.append {first : String} (nonempty : first ≠ "") (isOpen : StartsOpen first)
    (last : String) : StartsOpen (first ++ last) := by
  unfold StartsOpen
  rw [String.toList_append, List.head?_append_of_ne_nil]
  · exact isOpen
  · simpa using nonempty

/-- A fixed text between others that cuts them apart. -/
def Separates (separator : String) : Prop :=
  separator ≠ "" ∧ StartsOpen separator ∧ EndsOpen separator

instance (separator : String) : Decidable (Separates separator) :=
  inferInstanceAs (Decidable (_ ∧ _ ∧ _))

namespace Avoids

variable {name first second separator : String}

/-- A text without a part of a name does not have the name. -/
theorem of_missing {part : List Char} {text : String} (piece : part <:+: name.toList)
    (without : ¬ part <:+: text.toList) : Avoids name text := by
  unfold Avoids
  rw [Bool.eq_false_iff]
  intro found
  exact without (piece.trans (infix_of_hasWordFrom found))

theorem append (word : IsName name) (one : Avoids name first) (two : Avoids name second)
    (seam : EndsOpen first ∨ StartsOpen second) : Avoids name (first ++ second) := by
  unfold Avoids
  rw [hasWord_append word seam, one, two]
  rfl

/-- Two texts with a separator between them. -/
theorem around (word : IsName name) (one : Avoids name first) (cut : Separates separator)
    (avoids : Avoids name separator) (two : Avoids name second) :
    Avoids name (first ++ separator ++ second) :=
  append word (append word one avoids (Or.inr cut.2.1)) two
    (Or.inl (cut.2.2.append first cut.1))

theorem intercalate (word : IsName name) (cut : Separates separator)
    (avoids : Avoids name separator) {parts : List String}
    (each : ∀ part ∈ parts, Avoids name part) :
    Avoids name (String.intercalate separator parts) := by
  induction parts with
  | nil =>
      exact startsWithWord_nil word.1
  | cons part rest ih =>
      obtain ⟨here, later⟩ := List.forall_mem_cons.mp each
      cases rest with
      | nil =>
          rw [String.intercalate_singleton]
          exact here
      | cons second rest =>
          rw [String.intercalate_cons_cons]
          exact around word here cut avoids (ih later)

theorem join (word : IsName name) {parts : List String}
    (each : ∀ part ∈ parts, Avoids name part ∧ EndsOpen part) :
    Avoids name (String.join parts) := by
  induction parts with
  | nil => exact startsWithWord_nil word.1
  | cons part rest ih =>
      obtain ⟨⟨here, isOpen⟩, later⟩ := List.forall_mem_cons.mp each
      rw [String.join_cons]
      exact append word here (ih later) (Or.inl isOpen)

end Avoids

end ClientForge.Text
