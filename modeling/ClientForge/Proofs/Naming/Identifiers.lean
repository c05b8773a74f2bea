/-
# ClientForge.Proofs.Naming.Identifiers -- which names are identifiers

An identifier begins with a letter, a low line or a dollar sign, and goes on with these and
digits.  A name of ASCII that has a letter or a digit makes an identifier of every variable
(`camel_isIdentifier`): where it would begin with a digit, a low line stands in front.

The name of a type has no such guard.  It is an identifier exactly if the first letter or digit
of what it is made of is a letter (`pascal_isIdentifier_iff`), whatever ending it has.
-/
import ClientForge.Proofs.Naming.Algebra

namespace ClientForge.Naming

set_option autoImplicit false

open Text (isAlphanumeric upperChar lowerChar)

/-- A letter, a low line or a dollar sign, and then these or digits. -/
def IsIdentifier (name : String) : Prop :=
  name.toList.head?.any isIdentifierStart = true ∧ ∀ c ∈ name.toList, isIdentifierChar c = true

instance (name : String) : Decidable (IsIdentifier name) :=
  inferInstanceAs (Decidable (_ ∧ ∀ c ∈ name.toList, isIdentifierChar c = true))

/-- A text of ASCII with a letter or a digit in it. -/
structure IsNameable (name : String) : Prop where
  ascii : IsAscii name.toList
  letter : ∃ c ∈ name.toList, isAlphanumeric c = true

/-- The first letter or digit of a text is a digit. -/
def DigitFirst (name : String) : Prop :=
  (name.toList.find? isAlphanumeric).any Text.isAsciiDigit = true

instance (name : String) : Decidable (DigitFirst name) := inferInstanceAs (Decidable (_ = _))

/-- Such a text stays one between two texts of ASCII. -/
theorem IsNameable.between {name : String} (nameable : IsNameable name) {before behind : String}
    (start : IsAscii before.toList) (finish : IsAscii behind.toList) :
    IsNameable (before ++ name ++ behind) := by
  obtain ⟨ascii, c, member, letter⟩ := nameable
  constructor
  · intro d there
    simp only [String.toList_append, List.mem_append] at there
    rcases there with (first | second) | third
    · exact start d first
    · exact ascii d second
    · exact finish d third
  · refine ⟨c, ?_, letter⟩
    simp [member]

/-! ## Characters -/

theorem isIdentifierChar_ascii {c : Char} (ascii : c.toNat < 0x80)
    (letter : isAlphanumeric c = true) : isIdentifierChar c = true := by
  have table : ∀ n < 0x80, isAlphanumeric (Char.ofNat n) = true →
      isIdentifierChar (Char.ofNat n) = true := by decide +kernel
  exact of_ascii (P := fun c => isAlphanumeric c = true → isIdentifierChar c = true) table ascii
    letter

/-- A capital opens an identifier unless it is that of a digit. -/
theorem isIdentifierStart_upper {c : Char} (ascii : c.toNat < 0x80)
    (letter : isAlphanumeric c = true) :
    (upperChar c).head?.any isIdentifierStart = !Text.isAsciiDigit c := by
  have table : ∀ n < 0x80, isAlphanumeric (Char.ofNat n) = true →
      (upperChar (Char.ofNat n)).head?.any isIdentifierStart =
        !Text.isAsciiDigit (Char.ofNat n) := by decide +kernel
  exact of_ascii (P := fun c => isAlphanumeric c = true →
    (upperChar c).head?.any isIdentifierStart = !Text.isAsciiDigit c) table ascii letter

theorem isIdentifierStart_of_isSmall {c : Char} (small : isSmall c = true) :
    isIdentifierStart c = true := by
  simp [isIdentifierStart, small]

/-- An identifier stays one whatever is put behind it that could stand in one. -/
theorem IsIdentifier.append {name : String} (identifier : IsIdentifier name) {ending : String}
    (plain : ∀ c ∈ ending.toList, isIdentifierChar c = true) : IsIdentifier (name ++ ending) := by
  obtain ⟨start, each⟩ := identifier
  constructor
  · rw [String.toList_append]
    cases chars : name.toList with
    | nil =>
        rw [chars] at start
        cases start
    | cons c rest =>
        rw [chars] at start
        exact start
  · intro c member
    rw [String.toList_append] at member
    exact (List.mem_append.mp member).elim (each c) (plain c)

/-! ## Variables -/

/-- **The name of a variable is an identifier**, whether it is made of a letter or a digit. -/
theorem camel_isIdentifier {name : String} (nameable : IsNameable name) :
    IsIdentifier (camel name) := by
  obtain ⟨each, head⟩ := pascalChars_ascii nameable.ascii
  have some : pascalChars name.toList ≠ [] := pascalChars_ne_nil nameable.letter
  unfold IsIdentifier camel camelChars
  rw [String.toList_ofList]
  dsimp only
  generalize pascalChars name.toList = joined at each head some
  have plain : ∀ c ∈ joined, isIdentifierChar c = true := by
    intro c member
    exact isIdentifierChar_ascii (each c member).1 (each c member).2
  by_cases guarded : beginsWithDigit joined = true
  · rw [if_pos guarded]
    exact ⟨rfl, List.forall_mem_cons.mpr ⟨by decide, plain⟩⟩
  · rw [if_neg guarded]
    obtain ⟨c, rest, rfl⟩ := List.exists_cons_of_ne_nil some
    obtain ⟨low, letter⟩ := each c List.mem_cons_self
    obtain ⟨d, lower, -, -, small⟩ := lowerChar_ascii low letter (head c rfl)
    have start : isIdentifierStart d = true :=
      isIdentifierStart_of_isSmall ((Bool.or_eq_true_iff.mp small).resolve_left guarded)
    rw [uncapitalized, lower]
    refine ⟨start, List.forall_mem_cons.mpr ⟨?_, (List.forall_mem_cons.mp plain).2⟩⟩
    simp [isIdentifierChar, start]

/-! ## Types -/

theorem pascal_isIdentifierChar {name : String} (ascii : IsAscii name.toList) :
    ∀ c ∈ (pascal name).toList, isIdentifierChar c = true := by
  intro c member
  unfold pascal at member
  rw [String.toList_ofList] at member
  obtain ⟨low, letter⟩ := (pascalChars_ascii ascii).1 c member
  exact isIdentifierChar_ascii low letter

/-- **The name of a type is an identifier unless a digit comes first** in what it is made of. -/
theorem pascal_isIdentifier_iff {name : String} (nameable : IsNameable name) {ending : String}
    (plain : ∀ c ∈ ending.toList, isIdentifierChar c = true) :
    IsIdentifier (pascal name ++ ending) ↔ ¬ DigitFirst name := by
  obtain ⟨letter, there, isLetter⟩ := nameable.letter
  obtain ⟨c, first⟩ : ∃ c, name.toList.find? isAlphanumeric = some c := by
    apply Option.isSome_iff_exists.mp
    rw [List.find?_isSome]
    exact ⟨letter, there, isLetter⟩
  obtain ⟨rest, joined⟩ := pascalChars_first first
  have low : c.toNat < 0x80 := nameable.ascii c (List.mem_of_find?_eq_some first)
  have alphanumeric : isAlphanumeric c = true := List.find?_some first
  obtain ⟨d, upper, -⟩ := upperChar_ascii low alphanumeric
  have head : (pascal name ++ ending).toList.head? = (upperChar c).head? := by
    rw [String.toList_append, pascal, String.toList_ofList, joined, upper]
    rfl
  have each : ∀ e ∈ (pascal name ++ ending).toList, isIdentifierChar e = true := by
    intro e member
    rw [String.toList_append] at member
    exact (List.mem_append.mp member).elim (pascal_isIdentifierChar nameable.ascii e) (plain e)
  unfold IsIdentifier DigitFirst
  rw [head, isIdentifierStart_upper low alphanumeric, first, Option.any_some,
    Bool.not_eq_true', Bool.not_eq_true]
  exact and_iff_left each

example : IsIdentifier (camel "2fa-code") ∧ ¬ IsIdentifier (pascal "2fa-code") := by decide

end ClientForge.Naming
