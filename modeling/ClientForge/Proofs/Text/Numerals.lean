/-
# ClientForge.Proofs.Text.Numerals -- written numbers are read as the numbers

JSON text writes an integer as its digits and a double as the layout of its shortest decimal.
Whatever the layout, with a point, with zeros on either side or with an exponent, its digits
and its exponent make the same decimal (`readUnsigned_layout`), and that decimal is read as the
double (`Binary64.ofDecimal_shortest`).  So a number read back is the number, to the bit; what is
read of the text is all of it (`readPlain_int`, `readPlain_float`).
-/
import ClientForge.Json.Reader
import ClientForge.Proofs.Data.Shortest

namespace ClientForge

set_option autoImplicit false

/-! ## Digits -/

namespace Text

theorem digitsValue_eq (digits : List Char) :
    digitsValue digits = Nat.ofDigitChars 10 digits 0 := by
  unfold digitsValue Nat.ofDigitChars
  congr 1
  funext n c
  rw [Nat.mul_comm]

theorem digitsValue_append (a b : List Char) :
    digitsValue (a ++ b) = digitsValue a * 10 ^ b.length + digitsValue b := by
  rw [digitsValue_eq, Nat.ofDigitChars_append, Nat.ofDigitChars_eq_ofDigitChars_zero,
    ← digitsValue_eq, ← digitsValue_eq, Nat.mul_comm]

theorem digitsValue_zeros (n : Nat) : digitsValue (List.replicate n '0') = 0 := by
  rw [digitsValue_eq, Nat.ofDigitChars_replicate_zero, Nat.mul_zero]

theorem digitsValue_toDigits (n : Nat) : digitsValue (Nat.toDigits 10 n) = n := by
  rw [digitsValue_eq, Nat.ofDigitChars_ten_toDigits]

/-- Digits, at least one. -/
structure IsNumeral (digits : List Char) : Prop where
  nonempty : digits ≠ []
  each : ∀ c ∈ digits, isAsciiDigit c = true

theorem isNumeral_toDigits (n : Nat) : IsNumeral (Nat.toDigits 10 n) where
  nonempty := Nat.toDigits_ne_nil
  each := fun c member => by
    have digit := Nat.isDigit_of_mem_toDigits (by decide) (by decide) member
    simpa [Char.isDigit, isAsciiDigit, Char.le_def] using digit

/-- A number other than zero does not begin with a zero. -/
theorem head_toDigits {n : Nat} (pos : 0 < n) :
    ∃ c rest, Nat.toDigits 10 n = c :: rest ∧ c ≠ '0' := by
  induction n using Nat.strongRecOn with
  | ind n ih =>
      rw [Nat.toDigits_eq_if (by decide)]
      split
      · rename_i small
        have nonzero : ∀ d < 10, 0 < d → d.digitChar ≠ '0' := by decide
        exact ⟨_, _, rfl, nonzero n small pos⟩
      · obtain ⟨c, rest, same, nonzero⟩ := ih (n / 10) (by omega) (by omega)
        rw [same]
        exact ⟨c, rest ++ [(n % 10).digitChar], rfl, nonzero⟩

end Text

open Text (digitsValue IsNumeral isAsciiDigit)

/-! ## Parts of a number -/

namespace Json

/-- What stands behind digits when they have all been taken. -/
def EndsDigits (rest : List Char) : Prop := ∀ c, rest.head? = some c → isAsciiDigit c = false

variable {digits whole fraction rest : List Char}

theorem endsDigits_nil : EndsDigits [] := fun c first => by cases first

theorem takeDigits_append (each : ∀ c ∈ digits, isAsciiDigit c = true) (ends : EndsDigits rest) :
    takeDigits (digits ++ rest) = (digits, rest) := by
  unfold takeDigits
  rw [List.takeWhile_append_of_pos each, List.dropWhile_append_of_pos each]
  cases rest with
  | nil => simp
  | cons c rest => simp [ends c rfl]

theorem readFraction_point (digits : IsNumeral fraction) (ends : EndsDigits rest) :
    readFraction ('.' :: fraction ++ rest) = (fraction, rest) := by
  rw [List.cons_append, readFraction, takeDigits_append digits.each ends]
  split
  · rename_i same
    exact absurd (congrArg Prod.fst same) digits.nonempty
  · rfl

theorem readFraction_none (other : rest.head? ≠ some '.') : readFraction rest = ([], rest) := by
  cases rest with
  | nil => rfl
  | cons c rest =>
      have apart : c ≠ '.' := by simpa using other
      simp [readFraction, apart]

/-- An exponent with its sign, up to the end of the text. -/
theorem readExponent_places {places : List Char} (numeral : IsNumeral places) (below : Prop)
    [Decidable below] :
    readExponent ('e' :: (if below then '-' else '+') :: places) =
      (some (if below then -(digitsValue places : Int) else digitsValue places), []) := by
  have taken := takeDigits_append numeral.each endsDigits_nil
  rw [List.append_nil] at taken
  obtain ⟨c, rest, rfl⟩ := List.exists_cons_of_ne_nil numeral.nonempty
  by_cases holds : below
  · rw [if_pos holds, if_pos holds]
    simp [readExponent, taken]
  · rw [if_neg holds, if_neg holds]
    simp [readExponent, taken]

/-- The digits in front of the point; more than one do not begin with a zero. -/
structure IsWhole (whole : List Char) : Prop extends IsNumeral whole where
  plain : whole = ['0'] ∨ whole.head? ≠ some '0'

/-- A number behind the digits in front of its point. -/
def behindWhole (negative : Bool) (whole rest : List Char) :
    Except Fault (Scalar × List Char) :=
  let (fraction, rest) := readFraction rest
  let (exponent, rest) := readExponent rest
  if fraction.isEmpty && exponent.isNone then
    if Text.maxDigits < whole.length then .error (.number (.tooManyDigits whole.length))
    else .ok (.int (Text.signed negative (digitsValue whole)), rest)
  else
    .ok (.float (Binary64.ofDecimal negative (digitsValue (whole ++ fraction))
      (exponent.getD 0 - fraction.length)), rest)

theorem isWhole_zero : IsWhole ['0'] where
  nonempty := by simp
  each := fun c member => by
    rw [List.mem_singleton.mp member]
    rfl
  plain := Or.inl rfl

theorem readUnsigned_append (negative : Bool) (isWhole : IsWhole whole) (ends : EndsDigits rest) :
    readUnsigned negative (whole ++ rest) = behindWhole negative whole rest := by
  rcases isWhole.plain with rfl | other
  · rfl
  · have taken := takeDigits_append isWhole.each ends
    have nonempty := isWhole.nonempty
    cases whole with
    | nil => exact absurd rfl nonempty
    | cons c whole =>
        have nonzero : c ≠ '0' := by simpa using other
        rw [List.cons_append] at taken ⊢
        simp [readUnsigned, nonzero, taken, behindWhole]

theorem behindWhole_float (negative : Bool) (whole : List Char) {tail : List Char}
    {exponent : Option Int}
    (point : readFraction rest = (fraction, tail)) (power : readExponent tail = (exponent, []))
    (given : fraction ≠ [] ∨ exponent ≠ none) :
    behindWhole negative whole rest =
      .ok (.float (Binary64.ofDecimal negative (digitsValue (whole ++ fraction))
        (exponent.getD 0 - fraction.length)), []) := by
  unfold behindWhole
  rw [point]
  dsimp only
  rw [power]
  dsimp only
  rw [if_neg]
  rw [Bool.and_eq_true, List.isEmpty_iff, Option.isNone_iff_eq_none, not_and_or]
  exact given

/-- A number with a point and no exponent. -/
theorem readUnsigned_point (negative : Bool) (isWhole : IsWhole whole)
    (numeral : IsNumeral fraction) :
    readUnsigned negative (whole ++ '.' :: fraction) =
      .ok (.float (Binary64.ofDecimal negative (digitsValue (whole ++ fraction))
        (-fraction.length)), []) := by
  have ends : EndsDigits ('.' :: fraction) := fun c first => by
    cases first
    decide
  have point := readFraction_point numeral endsDigits_nil
  rw [List.append_nil] at point
  rw [readUnsigned_append negative isWhole ends,
    behindWhole_float negative whole point (by rfl : readExponent [] = (none, []))
      (Or.inl numeral.nonempty)]
  simp

/-! ## Layouts of doubles -/

theorem isNumeral_padded (k : Nat) (numeral : IsNumeral digits) :
    IsNumeral (List.replicate k '0' ++ digits) ∧ IsNumeral (digits ++ List.replicate k '0') := by
  have zeros : ∀ c ∈ List.replicate k '0', isAsciiDigit c = true := fun c member => by
    rw [List.eq_of_mem_replicate member]
    decide
  constructor
  · exact ⟨by simp [numeral.nonempty], List.forall_mem_append.mpr ⟨zeros, numeral.each⟩⟩
  · exact ⟨by simp [numeral.nonempty], List.forall_mem_append.mpr ⟨numeral.each, zeros⟩⟩

/-- The digits of an exponent, at least two. -/
theorem isNumeral_places (power : Int) :
    let places := Nat.toDigits 10 power.natAbs
    let places := if places.length < 2 then '0' :: places else places
    IsNumeral places ∧ digitsValue places = power.natAbs := by
  have numeral := Text.isNumeral_toDigits power.natAbs
  have value := Text.digitsValue_toDigits power.natAbs
  dsimp only
  split
  · exact ⟨(isNumeral_padded 1 numeral).1, value⟩
  · exact ⟨numeral, value⟩

section Layout

variable (negative : Bool) (numeral : IsNumeral digits) (nonzero : digits.head? ≠ some '0')
include numeral nonzero

/-- A layout with an exponent. -/
theorem readUnsigned_scientific (power : Int) {places : List Char} (isPlaces : IsNumeral places)
    (value : digitsValue places = power.natAbs) :
    readUnsigned negative (digits.take 1 ++
        (if digits.length ≤ 1 then [] else '.' :: digits.drop 1) ++
        ['e', if power < 0 then '-' else '+'] ++ places) =
      .ok (.float (Binary64.ofDecimal negative (digitsValue digits)
        (power - (digits.length - 1))), []) := by
  obtain ⟨c, rest, rfl⟩ := List.exists_cons_of_ne_nil numeral.nonempty
  have isWhole : IsWhole [c] :=
    ⟨⟨by simp, by simpa using numeral.each c List.mem_cons_self⟩, Or.inr (by simpa using nonzero)⟩
  have behindE := readExponent_places isPlaces (power < 0)
  have exponent :
      (if power < 0 then -(digitsValue places : Int) else digitsValue places) = power := by
    rw [value]
    split <;> omega
  rw [exponent] at behindE
  have behindDigits : EndsDigits ('e' :: (if power < 0 then '-' else '+') :: places) :=
    fun d first => by cases first; decide
  cases rest with
  | nil =>
      have number := behindWhole_float negative [c]
        (readFraction_none (by simp)) behindE (Or.inr (by simp))
      refine ((readUnsigned_append negative isWhole behindDigits).trans number).trans ?_
      simp
  | cons d rest =>
      have behindFirst : IsNumeral (d :: rest) :=
        ⟨by simp, fun d member => numeral.each d (List.mem_cons_of_mem _ member)⟩
      have number := behindWhole_float negative [c]
        (readFraction_point behindFirst behindDigits) behindE (Or.inr (by simp))
      have behindPoint : EndsDigits ('.' :: (d :: rest) ++
          'e' :: (if power < 0 then '-' else '+') :: places) := fun d first => by
        cases first
        decide
      have read := (readUnsigned_append negative isWhole behindPoint).trans number
      simpa using read

/-- Whatever the layout, the number that is read has its digits and its exponent. -/
theorem readUnsigned_layout (point : Int) :
    ∃ (n : Nat) (e : Int), readUnsigned negative (Binary64.layout digits point) =
        .ok (.float (Binary64.ofDecimal negative n e), []) ∧
      (n : ℚ) * 10 ^ e = digitsValue digits * 10 ^ (point - digits.length) := by
  unfold Binary64.layout
  dsimp only
  split
  · split
    · -- zeros in front of the digits
      obtain ⟨k, same⟩ := Int.eq_ofNat_of_zero_le (a := -point) (by omega)
      have read := readUnsigned_point negative isWhole_zero (isNumeral_padded k numeral).1
      have value :
          digitsValue (['0'] ++ (List.replicate k '0' ++ digits)) = digitsValue digits := by
        rw [Text.digitsValue_append, Text.digitsValue_append, Text.digitsValue_zeros]
        simp [digitsValue]
      have exponent :
          -((List.replicate k '0' ++ digits).length : Int) = point - digits.length := by
        rw [List.length_append, List.length_replicate]
        omega
      rw [value, exponent] at read
      rw [same, Int.toNat_natCast, List.append_assoc]
      exact ⟨_, _, read, rfl⟩
    split
    · -- zeros behind the digits
      obtain ⟨k, same⟩ := Int.eq_ofNat_of_zero_le (a := point - digits.length) (by omega)
      have isWhole : IsWhole (digits ++ List.replicate k '0') := by
        refine ⟨(isNumeral_padded k numeral).2, Or.inr ?_⟩
        rwa [List.head?_append_of_ne_nil _ numeral.nonempty]
      have read := readUnsigned_point negative isWhole isWhole_zero.toIsNumeral
      have value : digitsValue (digits ++ List.replicate k '0' ++ ['0']) =
          digitsValue digits * 10 ^ k * 10 := by
        rw [Text.digitsValue_append, Text.digitsValue_append, Text.digitsValue_zeros,
          List.length_replicate]
        rfl
      rw [value] at read
      rw [same, Int.toNat_natCast]
      refine ⟨_, _, read, ?_⟩
      push_cast
      simp
    · -- a point between the digits
      obtain ⟨k, same⟩ := Int.eq_ofNat_of_zero_le (a := point) (by omega)
      rw [same, Int.toNat_natCast]
      have isWhole : IsWhole (digits.take k) := by
        refine ⟨⟨?_, fun c member => numeral.each c (List.mem_of_mem_take member)⟩, Or.inr ?_⟩
        · rw [ne_eq, List.take_eq_nil_iff, not_or]
          exact ⟨by omega, numeral.nonempty⟩
        · rwa [List.head?_take, if_neg (by omega)]
      have behind : IsNumeral (digits.drop k) := by
        refine ⟨?_, fun c member => numeral.each c (List.mem_of_mem_drop member)⟩
        rw [ne_eq, List.drop_eq_nil_iff]
        omega
      have read := readUnsigned_point negative isWhole behind
      have exponent : -((digits.drop k).length : Int) = k - digits.length := by
        rw [List.length_drop]
        omega
      rw [List.take_append_drop, exponent] at read
      rw [List.append_assoc]
      exact ⟨_, _, read, rfl⟩
  · obtain ⟨isPlaces, value⟩ := isNumeral_places (point - 1)
    refine ⟨_, _, readUnsigned_scientific negative numeral nonzero (point - 1) isPlaces value, ?_⟩
    congr 2
    omega

end Layout

/-! ## Whole texts -/

/-- Zeros on the right are all that is dropped. -/
theorem exists_dropZeros (digits : List Char) :
    ∃ k, digits = Binary64.dropZeros digits ++ List.replicate k '0' := by
  induction digits with
  | nil => exact ⟨0, rfl⟩
  | cons c rest ih =>
      obtain ⟨k, same⟩ := ih
      rw [Binary64.dropZeros]
      split
      · rename_i none
        rw [none, List.nil_append] at same
        split
        · rename_i zero
          exact ⟨k + 1, by rw [zero, List.replicate_succ, List.nil_append, ← same]⟩
        · exact ⟨k, by rw [List.singleton_append, ← same]⟩
      · exact ⟨k, by rw [List.cons_append, ← same]⟩

theorem readUnsigned_proper {x : Binary64} (proper : x.IsProper) :
    readUnsigned x.negative (Binary64.layout (Binary64.dropZeros (Nat.toDigits 10 x.shortest.1))
        (x.shortest.2 + (Nat.toDigits 10 x.shortest.1).length)) = .ok (.float x, []) := by
  have pos : 0 < x.shortest.1 :=
    Binary64.pos_of_within proper.normal (Binary64.shortest_within proper)
  obtain ⟨c, rest, starts, nonzero⟩ := Text.head_toDigits pos
  obtain ⟨k, same⟩ := exists_dropZeros (Nat.toDigits 10 x.shortest.1)
  have numeral := Text.isNumeral_toDigits x.shortest.1
  have value := Text.digitsValue_toDigits x.shortest.1
  generalize Nat.toDigits 10 x.shortest.1 = shown at *
  generalize Binary64.dropZeros shown = digits at *
  have isNumeral : IsNumeral digits ∧ digits.head? ≠ some '0' := by
    cases digits with
    | nil =>
        have zero : c ∈ List.replicate k '0' := by
          rw [← List.nil_append (List.replicate k '0'), ← same, starts]
          exact List.mem_cons_self
        exact absurd (List.eq_of_mem_replicate zero) nonzero
    | cons d digits =>
        rw [starts, List.cons_append, List.cons.injEq] at same
        refine ⟨⟨by simp, fun e member => numeral.each e ?_⟩, by simpa [← same.1] using nonzero⟩
        rw [starts, same.1, same.2, ← List.cons_append]
        exact List.mem_append_left _ member
  obtain ⟨n, e, read, decimal⟩ := readUnsigned_layout x.negative isNumeral.1
    isNumeral.2 (x.shortest.2 + shown.length)
  have equal : (n : ℚ) * 10 ^ e = x.shortest.1 * 10 ^ x.shortest.2 := by
    have length : x.shortest.2 + shown.length - digits.length = x.shortest.2 + k := by
      rw [same, List.length_append, List.length_replicate]
      omega
    rw [same, Text.digitsValue_append, Text.digitsValue_zeros, List.length_replicate] at value
    rw [decimal, length, ← value, zpow_add₀ (by norm_num), zpow_natCast]
    push_cast
    ring
  rw [read, Binary64.ofDecimal_shortest proper equal]

theorem starts_of_readUnsigned {negative : Bool} {s : List Char} {found : Scalar × List Char}
    (read : readUnsigned negative s = .ok found) :
    ∃ c rest, s = c :: rest ∧ isAsciiDigit c = true := by
  cases s with
  | nil => cases read
  | cons c rest =>
      by_cases digit : isAsciiDigit c = true
      · exact ⟨c, rest, rfl, digit⟩
      · have nonzero : c ≠ '0' := by
          rintro rfl
          exact digit rfl
        have none : takeDigits (c :: rest) = ([], c :: rest) := by
          simp [takeDigits, digit]
        simp [readUnsigned, nonzero, none, malformed] at read

theorem readPlain_of_readUnsigned {negative : Bool} {s : List Char} {found : Scalar × List Char}
    (read : readUnsigned negative s = .ok found) :
    readPlain ((if negative then "-" else "").toList ++ s) = .ok found := by
  obtain ⟨c, rest, rfl, digit⟩ := starts_of_readUnsigned read
  have other {d : Char} (noDigit : isAsciiDigit d = false) : d ≠ c := by
    rintro rfl
    rw [digit] at noDigit
    cases noDigit
  have letters : 'n' ≠ c ∧ 't' ≠ c ∧ 'f' ≠ c ∧ 'N' ≠ c ∧ 'I' ≠ c ∧ '-' ≠ c :=
    ⟨other rfl, other rfl, other rfl, other rfl, other rfl, other rfl⟩
  obtain ⟨n, t, f, N, I, minus⟩ := letters
  cases negative with
  | false =>
      have noWord : readWord (c :: rest) = none := by
        simp [readWord, words, n, t, f, N, I, minus]
      simpa [readPlain, noWord, minus.symm] using read
  | true =>
      have noWord : readWord ('-' :: c :: rest) = none := by
        simp [readWord, words, I]
      simpa [readPlain, noWord] using read

/-- **A written integer is read as the integer.** -/
theorem readPlain_int {i : Int} (few : (Nat.toDigits 10 i.natAbs).length ≤ Text.maxDigits) :
    readPlain (toString i).toList = .ok (.int i, []) := by
  have read (negative : Bool) (n : Nat) (few : (Nat.toDigits 10 n).length ≤ Text.maxDigits) :
      readUnsigned negative (Nat.toDigits 10 n) = .ok (.int (Text.signed negative n), []) := by
    have isWhole : IsWhole (Nat.toDigits 10 n) := by
      refine ⟨Text.isNumeral_toDigits n, ?_⟩
      rcases Nat.eq_zero_or_pos n with rfl | pos
      · exact Or.inl rfl
      · obtain ⟨c, rest, starts, nonzero⟩ := Text.head_toDigits pos
        exact Or.inr (by simpa [starts] using nonzero)
    have run := readUnsigned_append negative isWhole endsDigits_nil
    rw [List.append_nil] at run
    rw [run]
    simp [behindWhole, readFraction, readExponent, Nat.not_lt.mpr few, Text.digitsValue_toDigits]
  rw [Int.toString_eq_repr]
  cases i with
  | ofNat n =>
      have whole := readPlain_of_readUnsigned (read false n few)
      rwa [← Nat.toList_repr] at whole
  | negSucc n =>
      have whole := readPlain_of_readUnsigned (read true (n + 1) few)
      rw [← Nat.toList_repr] at whole
      change readPlain ("-" ++ (n + 1).repr).toList = _
      rw [String.toList_append]
      exact whole

/-- **A written double is read as the double.** -/
theorem readPlain_float {x : Binary64} (finite : x.isInfinite = false)
    (number : x.isNotANumber = false) : readPlain x.text.toList = .ok (.float x, []) := by
  unfold Binary64.text
  rw [if_neg (by simp [number])]
  dsimp only
  rw [if_neg (by simp [finite])]
  split
  · rename_i zero
    have none : x.magnitude = 0 := by simpa [Binary64.isZero] using zero
    have value :
        Binary64.ofDecimal x.negative (digitsValue (['0'] ++ ['0'])) (-['0'].length) = x := by
      have parts := x.ofMagnitude_magnitude
      rwa [none] at parts
    have read := readUnsigned_point x.negative isWhole_zero isWhole_zero.toIsNumeral
    rw [value] at read
    rw [String.toList_append]
    exact readPlain_of_readUnsigned read
  · rename_i nonzero
    have proper : x.IsProper := ⟨by simpa using nonzero, finite, number⟩
    rw [String.toList_append, String.toList_ofList]
    exact readPlain_of_readUnsigned (readUnsigned_proper proper)

end Json

end ClientForge
