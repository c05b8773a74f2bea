/-
# ClientForge.Proofs.Json.Reading -- what is written is read

The reader of JSON takes a text of the plain grammar for the value that it writes (`read_laid`).
Each part of the reader takes the characters that its part of the grammar has written, and leaves
what stands behind them: a string up to its quote (`readQuoted_spell`), a number as long as it goes
on (`readPlain_word`), a value up to the next token.  Only behind a word it matters what follows,
for a word has no end of its own; it is a sign, a blank or the end of the text (`Stops`).

Every token has a character at least, and a list or an object has two tokens of its own, which is
more than the depth it adds.  So the length of the text is enough fuel.
-/
import ClientForge.Proofs.Json.Commas

namespace ClientForge.Json

set_option autoImplicit false

open Piece (Spelled Spell join)
open Text (isHighUnit isLowUnit charOfPair charOfUnit readHex)

/-! ## Strings -/

section Strings

variable {n high low fuel : Nat} {done s rest : List Char} {c e : Char}

theorem Piece.Spelled.four {text : List Char} (spelled : Spelled (.unit n) text) :
    ∃ four, text = '\\' :: 'u' :: four ∧ ∀ s, readHex 4 0 (four ++ s) = some (n, s) := by
  cases spelled with
  | unit first second third fourth =>
      exact ⟨_, rfl, fun s => by simp [readHex, first, second, third, fourth]⟩

theorem readString_raw (printable : 0x20 ≤ c.toNat) (noQuote : c ≠ '"') (noSlash : c ≠ '\\') :
    readString (fuel + 1) done (c :: s) = readString fuel (c :: done) s := by
  conv_lhs => unfold readString
  rw [if_neg noQuote, if_neg (Nat.not_lt.mpr printable), if_pos noSlash]

theorem escape_ne (escape : simpleEscape? e = some c) : e ≠ 'u' := by
  rintro rfl
  exact absurd (mem_of_simpleEscape? escape) (by decide)

theorem readString_escape (escape : simpleEscape? e = some c) :
    readString (fuel + 1) done ('\\' :: e :: s) = readString fuel (c :: done) s := by
  conv_lhs => unfold readString
  rw [if_neg (by decide), if_neg (by decide), if_neg (by simp)]
  split
  · rename_i same
    exact absurd (List.cons.inj same).1 (escape_ne escape)
  · rename_i same
    obtain ⟨rfl, rfl⟩ := List.cons.inj same
    rw [escape]
    rfl
  · rename_i same
    cases same

/-- Two halves of a character. -/
theorem readString_pair {four four' : List Char}
    (first : ∀ s, readHex 4 0 (four ++ s) = some (high, s))
    (second : ∀ s, readHex 4 0 (four' ++ s) = some (low, s))
    (pair : (isHighUnit high && isLowUnit low) = true) :
    readString (fuel + 1) done ('\\' :: 'u' :: (four ++ '\\' :: 'u' :: (four' ++ s))) =
      readString fuel (charOfPair high low :: done) s := by
  rw [Bool.and_eq_true] at pair
  conv_lhs => unfold readString
  rw [if_neg (by decide), if_neg (by decide), if_neg (by simp)]
  simp only [first, second, pair.1, pair.2, Option.bind_eq_bind, Option.bind_some, if_true]

/-- A unit that is not one of two halves. -/
theorem readString_alone {four : List Char}
    (first : ∀ s, readHex 4 0 (four ++ s) = some (n, s))
    (alone : ∀ more next after, s = '\\' :: 'u' :: more → readHex 4 0 more = some (next, after) →
      (isHighUnit n && isLowUnit next) = false) :
    readString (fuel + 1) done ('\\' :: 'u' :: (four ++ s)) =
      readString fuel (charOfUnit n :: done) s := by
  conv_lhs => unfold readString
  rw [if_neg (by decide), if_neg (by decide), if_neg (by simp)]
  simp only [first, Option.bind_eq_bind, Option.bind_some]
  split
  · rename_i more
    split
    · rename_i next after isHigh second
      have apart := alone more next after rfl second
      rw [isHigh, Bool.true_and] at apart
      simp [apart]
    · rfl
  · rfl

/-- A string is read up to its quote. -/
theorem readString_spell {ps : List Piece} {body : List Char} (spell : Spell ps body)
    (enough : body.length < fuel) :
    readString fuel done (body ++ '"' :: rest) =
      some (String.ofList (done.reverse ++ join ps), rest) := by
  induction ps using Piece.join.induct generalizing body fuel done with
  | case1 =>
      cases spell
      obtain ⟨fuel, rfl⟩ := Nat.exists_eq_succ_of_ne_zero (Nat.ne_of_gt enough)
      simp [readString, join]
  | case2 c ps ih =>
      cases spell with
      | cons spelled later =>
      rename_i text body
      obtain ⟨fuel, rfl⟩ := Nat.exists_eq_succ_of_ne_zero (Nat.ne_zero_of_lt enough)
      rw [List.length_append] at enough
      have next (some : 0 < text.length) :
          readString fuel (c :: done) (body ++ '"' :: rest) =
            Option.some (String.ofList (done.reverse ++ join (.char c :: ps)), rest) := by
        rw [ih later (by omega), join, List.reverse_cons, List.append_assoc]
        rfl
      cases spelled with
      | raw printable noQuote noSlash =>
          exact (readString_raw printable noQuote noSlash).trans (next Nat.one_pos)
      | escape escape => exact (readString_escape escape).trans (next Nat.two_pos)
  | case3 high low ps pair ih =>
      cases spell with
      | cons spelled later =>
      cases later with
      | cons spelled' later =>
      obtain ⟨four, rfl, first⟩ := spelled.four
      obtain ⟨four', rfl, second⟩ := spelled'.four
      obtain ⟨fuel, rfl⟩ := Nat.exists_eq_succ_of_ne_zero (Nat.ne_zero_of_lt enough)
      simp only [List.length_append, List.length_cons] at enough
      simp only [List.cons_append, List.append_assoc]
      rw [readString_pair first second pair, ih later (by omega), join, if_pos pair]
      simp
  | case4 high low ps apart ih =>
      cases spell with
      | cons spelled later =>
      obtain ⟨four, rfl, first⟩ := spelled.four
      obtain ⟨fuel, rfl⟩ := Nat.exists_eq_succ_of_ne_zero (Nat.ne_zero_of_lt enough)
      simp only [List.length_append, List.length_cons] at enough
      simp only [List.cons_append, List.append_assoc]
      rw [readString_alone first, ih later (by omega), join, if_neg apart]
      · simp
      · intro more next after starts second
        cases later with
        | cons spelled' later =>
        obtain ⟨four', rfl, third⟩ := spelled'.four
        simp only [List.cons_append, List.append_assoc, List.cons.injEq, true_and] at starts
        rw [← starts, third] at second
        cases second
        exact Bool.eq_false_iff.mpr apart
  | case5 n ps alone ih =>
      cases spell with
      | cons spelled later =>
      obtain ⟨four, rfl, first⟩ := spelled.four
      obtain ⟨fuel, rfl⟩ := Nat.exists_eq_succ_of_ne_zero (Nat.ne_zero_of_lt enough)
      simp only [List.length_append, List.length_cons] at enough
      simp only [List.cons_append, List.append_assoc]
      rw [readString_alone first, ih later (by omega), join]
      · simp
      · exact alone
      · -- what follows is the quote or a character, neither of which begins with `\u`
        intro more next after starts second
        cases later with
        | nil => cases starts
        | cons spelled' later =>
        cases spelled' with
        | raw _ _ noSlash => exact absurd (List.cons.inj starts).1 noSlash
        | escape escape =>
            exact absurd (List.cons.inj (List.cons.inj starts).2).1 (escape_ne escape)
        | unit => exact absurd rfl (alone _ _)

theorem readQuoted_spell {ps : List Piece} {body : List Char} (spell : Spell ps body)
    (rest : List Char) : readQuoted (body ++ '"' :: rest) = .ok (Piece.string ps, rest) := by
  unfold readQuoted
  rw [readString_spell spell]
  · rfl
  · rw [List.length_append]
    omega

end Strings

/-! ## Words -/

/-- What may stand behind a word. -/
def Stops (rest : List Char) : Prop := ∀ c, rest.head? = some c → ¬ IsWordChar c

section Words

variable {rest : List Char}

theorem Stops.endsDigits (stops : Stops rest) : EndsDigits rest := fun c first => by
  refine Bool.eq_false_iff.mpr fun digit => stops c first ?_
  exact isWordChar_of_isNumeral ⟨List.cons_ne_nil c [], by simpa using digit⟩ c (by simp)

theorem Exponent.read (x : Exponent) (stops : Stops rest) :
    readExponent (x.text ++ rest) = (some x.value, rest) := by
  have taken := takeDigits_append x.numeral.each stops.endsDigits
  obtain ⟨d, ds, digits⟩ := List.exists_cons_of_ne_nil x.numeral.nonempty
  have digit := x.numeral.each d (by simp [digits])
  have noMinus : d ≠ '-' := by
    rintro rfl
    cases digit
  have noPlus : d ≠ '+' := by
    rintro rfl
    cases digit
  unfold Exponent.text Exponent.value
  rw [digits] at taken ⊢
  rw [List.cons_append] at taken
  cases x.sign with
  | none => simp [readExponent, taken, noMinus, noPlus, Text.signed]
  | some minus => cases minus <;> simp [readExponent, taken, Text.signed]

theorem readExponent_none (stops : Stops rest) : readExponent rest = (none, rest) := by
  cases rest with
  | nil => rfl
  | cons c rest =>
      have noWord := stops c rfl
      have other : ¬ (c = 'e' ∨ c = 'E') := by
        rintro (rfl | rfl) <;> exact noWord (by decide)
      simp [readExponent, other]

/-- An exponent, if there is one. -/
theorem Number.readExponent (n : Number) (stops : Stops rest) :
    Json.readExponent ((n.exponent.map Exponent.text).getD [] ++ rest) =
      (n.exponent.map Exponent.value, rest) := by
  cases n.exponent with
  | none => exact readExponent_none stops
  | some x => exact x.read stops

theorem Number.readFraction (n : Number) (stops : Stops rest) :
    Json.readFraction (n.tail ++ rest) =
      (n.fraction, (n.exponent.map Exponent.text).getD [] ++ rest) := by
  have behind : ∀ c, ((n.exponent.map Exponent.text).getD [] ++ rest).head? = some c →
      Text.isAsciiDigit c = false ∧ c ≠ '.' := by
    intro c first
    cases found : n.exponent with
    | none =>
        rw [found] at first
        refine ⟨stops.endsDigits c first, ?_⟩
        rintro rfl
        exact stops _ first (by decide)
    | some x =>
        rw [found] at first
        obtain rfl := Option.some.inj first
        cases x.capital <;> decide
  rw [Number.tail, List.append_assoc]
  rcases n.behindPoint with none | numeral
  · rw [none]
    exact readFraction_none fun first => (behind _ first).2 rfl
  · rw [if_neg (by simpa using numeral.nonempty)]
    exact readFraction_point numeral fun c first => (behind c first).1

/-- A number is read as long as it goes on. -/
theorem Number.read {n : Number} (within : n.Within (some Text.maxDigits)) (stops : Stops rest) :
    readPlain (n.text ++ rest) = .ok (n.value, rest) := by
  have ends : EndsDigits (n.tail ++ rest) := by
    intro c first
    unfold Number.tail at first
    rcases n.behindPoint with none | numeral
    · rw [none] at first
      cases found : n.exponent with
      | none =>
          rw [found] at first
          exact stops.endsDigits c first
      | some x =>
          rw [found] at first
          obtain rfl := Option.some.inj first
          cases x.capital <;> rfl
    · rw [if_neg (by simpa using numeral.nonempty)] at first
      obtain rfl := Option.some.inj first
      rfl
  have read : readUnsigned n.negative (n.whole ++ (n.tail ++ rest)) = .ok (n.value, rest) := by
    rw [readUnsigned_append n.negative n.isWhole ends, behindWhole, n.readFraction stops]
    dsimp only
    rw [n.readExponent stops]
    dsimp only
    unfold Number.value
    have same : (n.fraction.isEmpty && (n.exponent.map Exponent.value).isNone) = n.isInteger := by
      rw [Number.isInteger, Option.isNone_map]
    rw [same]
    split
    · rename_i integer
      rw [if_neg (Nat.not_lt.mpr (within integer _ rfl))]
    · rfl
  have whole := readPlain_of_readUnsigned read
  rwa [← List.append_assoc, ← List.append_assoc, List.append_assoc _ n.whole n.tail] at whole

theorem readPlain_word {text : List Char} {a : Scalar}
    (writes : WordWrites (some Text.maxDigits) text a) (stops : Stops rest) :
    readPlain (text ++ rest) = .ok (a, rest) := by
  cases writes with
  | null => rfl
  | bool b => cases b <;> rfl
  | number n within => exact n.read within stops

end Words

/-! ## Values -/

section Values

variable {rest : List Token} {text : List Char} {fuel : Nat}

theorem skipSpace_gap {g : List Char} (blank : Blank g) (s : List Char) :
    skipSpace (g ++ s) = skipSpace s := List.dropWhile_append_of_pos blank

/-- A token begins where the blanks in front of it end. -/
theorem Token.Sound.skipSpace {t : Token} (sound : t.Sound) (s : List Char) :
    Json.skipSpace (t.text ++ s) = t.text ++ s := by
  have ink {c : Char} (noBlank : Text.isBlank c = false) (s : List Char) :
      Json.skipSpace (c :: s) = c :: s := by
    refine List.dropWhile_cons_of_neg fun space => ?_
    rw [isBlank_of_isSpace space] at noBlank
    cases noBlank
  cases sound with
  | sign is =>
      have each : ∀ c ∈ signs, Text.isBlank c = false := by decide
      exact ink (each _ is) s
  | word some each =>
      obtain ⟨c, cs, rfl⟩ := List.exists_cons_of_ne_nil some
      exact ink (isBlank_of_isWordChar (each c List.mem_cons_self)) _
  | quoted => exact ink (by decide) _

theorem Laid.skipSpace {t : Token} {ts : List Token} (laid : Laid Blank Blank (t :: ts) text)
    (sound : t.Sound) :
    ∃ s, Laid Blank Blank ts s ∧ Json.skipSpace text = t.text ++ s := by
  cases laid with
  | cons blank laid => exact ⟨_, laid, by rw [skipSpace_gap blank, sound.skipSpace]⟩

theorem Laid.sign {c : Char} {ts : List Token}
    (laid : Laid Blank Blank (.sign c :: ts) text) (is : c ∈ signs) :
    ∃ s, Laid Blank Blank ts s ∧ Json.skipSpace text = c :: s := laid.skipSpace (.sign is)

theorem Laid.skipSpace_nil (laid : Laid Blank Blank [] text) : Json.skipSpace text = [] := by
  cases laid with
  | nil blank =>
      have none := skipSpace_gap blank []
      rwa [List.append_nil] at none

theorem Laid.length_le {ts : List Token} (laid : Laid Blank Blank ts text)
    (sound : ∀ t ∈ ts, t.Sound) : ts.length ≤ text.length := by
  induction laid with
  | nil => exact Nat.zero_le _
  | cons blank laid ih =>
      rename_i t ts g s
      obtain ⟨first, later⟩ := List.forall_mem_cons.mp sound
      have some : 0 < t.text.length := by
        cases first with
        | word some => exact List.length_pos_iff.mpr some
        | _ => exact Nat.succ_pos _
      have := ih later
      simp only [List.length_cons, List.length_append]
      omega

/-- What may stand behind a value: nothing, or a sign. -/
def StopsValue (ts : List Token) : Prop := ∀ t, ts.head? = some t → ∃ c ∈ signs, t = .sign c

theorem stopsValue_sign {c : Char} (is : c ∈ signs) : StopsValue (.sign c :: rest) :=
  fun _ first => ⟨c, is, (Option.some.inj first).symm⟩

theorem Laid.stops (laid : Laid Blank Blank rest text) (stops : StopsValue rest) :
    Stops text := by
  intro c first word
  have noBlank := isBlank_of_isWordChar word
  have blanks {g s : List Char} (blank : Blank g) (starts : (g ++ s).head? = some c) :
      s.head? = some c := by
    cases g with
    | nil => exact starts
    | cons d g =>
        obtain rfl := Option.some.inj starts
        rw [isBlank_of_isSpace (blank d List.mem_cons_self)] at noBlank
        cases noBlank
  cases laid with
  | nil blank =>
      rw [← List.append_nil text] at first
      cases blanks blank first
  | cons blank laid =>
      obtain ⟨d, is, rfl⟩ := stops _ rfl
      obtain rfl := Option.some.inj (blanks blank first)
      have each : ∀ c ∈ signs, ¬ IsWordChar c := by decide
      exact each _ is word

/-- What the reader makes of a row of tokens with more behind it. -/
def Phrase.ReadFrom (ts : List Token) : Phrase → Prop
  | .value v => ∀ rest text fuel, Laid Blank Blank (ts ++ rest) text → StopsValue rest →
      ts.length ≤ fuel →
      ∃ s, Laid Blank Blank rest s ∧ readValue fuel (skipSpace text) = .ok (v, s)
  | .items vs => ∀ rest text fuel done, Laid Blank Blank (ts ++ .sign ']' :: rest) text →
      ts.length < fuel →
      ∃ s, Laid Blank Blank rest s ∧
        readItems fuel done (skipSpace text) = .ok (.list (done.reverse ++ vs), s)
  | .members fields => ∀ rest text fuel done,
      Laid Blank Blank (ts ++ .sign '\x7d' :: rest) text → ts.length < fuel →
      ∃ s, Laid Blank Blank rest s ∧
        readMembers fuel done (skipSpace text) = .ok (.map (Entries.putAll done fields), s)

/-! ### Steps of the reader -/

theorem readValue_word {w : List Char} (sound : (Token.word w).Sound) (s : List Char) :
    readValue (fuel + 1) (w ++ s) = (readPlain (w ++ s)).map fun (a, rest) => (.atom a, rest) := by
  cases sound with
  | word some each =>
      obtain ⟨c, w, rfl⟩ := List.exists_cons_of_ne_nil some
      have word := each c List.mem_cons_self
      have other {d : Char} (noWord : ¬ IsWordChar d) (s' : List Char) :
          c :: (w ++ s) ≠ d :: s' := fun same => word.ne noWord (List.cons.inj same).1
      rw [List.cons_append, readValue]
      · exact other (by decide)
      · exact other (by decide)
      · exact other (by decide)

theorem readValue_list {s : List Char} (opens : (skipSpace s).head? ≠ some ']') :
    readValue (fuel + 1) ('[' :: s) = readItems fuel [] (skipSpace s) := by
  rw [readValue]
  split
  · rename_i same
    exact absurd (by rw [same]; rfl) opens
  · rfl

theorem readValue_object {s : List Char} (opens : (skipSpace s).head? ≠ some '\x7d') :
    readValue (fuel + 1) ('\x7b' :: s) = readMembers fuel [] (skipSpace s) := by
  rw [readValue]
  split
  · rename_i same
    exact absurd (by rw [same]; rfl) opens
  · rfl

section Rows

variable {s r r' : List Char} {v : Value}

theorem readItems_last {done : List Value} (item : readValue fuel s = .ok (v, r))
    (closes : skipSpace r = ']' :: r') :
    readItems (fuel + 1) done s = .ok (.list (done.reverse ++ [v]), r') := by
  simp [readItems, item, closes, bind, Except.bind]

theorem readItems_next {done : List Value} (item : readValue fuel s = .ok (v, r))
    (comma : skipSpace r = ',' :: r') :
    readItems (fuel + 1) done s = readItems fuel (v :: done) (skipSpace r') := by
  simp [readItems, item, comma, bind, Except.bind]

variable {body : List Char} {ps : List Piece} {done : Entries} {q q' : List Char}

theorem readMembers_last (spell : Spell ps body) (colon : skipSpace q = ':' :: q')
    (value : readValue fuel (skipSpace q') = .ok (v, r)) (closes : skipSpace r = '\x7d' :: r') :
    readMembers (fuel + 1) done ('"' :: (body ++ '"' :: q)) =
      .ok (.map (Entries.put (.str (Piece.string ps)) v done), r') := by
  simp [readMembers, readQuoted_spell spell, colon, value, closes, bind, Except.bind]

theorem readMembers_next (spell : Spell ps body) (colon : skipSpace q = ':' :: q')
    (value : readValue fuel (skipSpace q') = .ok (v, r)) (comma : skipSpace r = ',' :: r') :
    readMembers (fuel + 1) done ('"' :: (body ++ '"' :: q)) =
      readMembers fuel (Entries.put (.str (Piece.string ps)) v done) (skipSpace r') := by
  simp [readMembers, readQuoted_spell spell, colon, value, comma, bind, Except.bind]

/-- A member whose value is refused. -/
theorem readMembers_refused {fault : Fault} (spell : Spell ps body)
    (colon : skipSpace q = ':' :: q') (value : readValue fuel (skipSpace q') = .error fault) :
    readMembers (fuel + 1) done ('"' :: (body ++ '"' :: q)) = .error fault := by
  simp only [readMembers, readQuoted_spell spell, colon, value, bind, Except.bind]

end Rows

/-! ### Rows of tokens -/

/-- Nothing that is written begins with a closing bracket. -/
theorem Writes.opens {commas : Bool} {most : Option Nat} {ts : List Token} {p : Phrase}
    (writes : Writes commas most ts p) (laid : Laid Blank Blank (ts ++ rest) text) {c : Char}
    (closes : (Token.sign c).closes = true) : (skipSpace text).head? ≠ some c := by
  obtain ⟨t, more, rfl, opens⟩ := writes.starts
  have sound : t.Sound := writes.sound t List.mem_cons_self
  obtain ⟨s, -, same⟩ := laid.skipSpace sound
  rw [same]
  have apart : c ∈ ['\x7d', ']'] := by simpa [Token.closes] using closes
  rintro first
  cases sound with
  | sign =>
      obtain rfl := Option.some.inj first
      rw [closes] at opens
      cases opens
  | word some each =>
      obtain ⟨d, w, rfl⟩ := List.exists_cons_of_ne_nil some
      obtain rfl := Option.some.inj first
      have noWord : ∀ c ∈ ['\x7d', ']'], ¬ IsWordChar c := by decide
      exact noWord d apart (each d List.mem_cons_self)
  | quoted =>
      obtain rfl := Option.some.inj first
      exact absurd apart (by decide)

/-- Behind a quoted text its quote is found again. -/
theorem Token.text_quoted_append (body s : List Char) :
    Token.text (.quoted body) ++ s = '"' :: (body ++ '"' :: s) := by
  simp [Token.text]

/-- **What the plain grammar derives is read.** -/
theorem Writes.read {ts : List Token} {p : Phrase}
    (writes : Writes false (some Text.maxDigits) ts p) : p.ReadFrom ts := by
  have none {trail : List Token} (isTrail : IsTrail false trail) : trail = [] :=
    isTrail.resolve_right fun both => Bool.false_ne_true both.1
  have fueled {n fuel : Nat} (enough : n + 1 ≤ fuel) : ∃ less, fuel = less + 1 ∧ n ≤ less :=
    ⟨fuel - 1, by omega, by omega⟩
  induction writes with
  | word writes =>
      intro rest text fuel laid stops enough
      obtain ⟨fuel, rfl, -⟩ := fueled enough
      obtain ⟨s, laid, same⟩ := laid.skipSpace writes.sound
      refine ⟨s, laid, ?_⟩
      rw [same, Token.text, readValue_word writes.sound, readPlain_word writes (laid.stops stops)]
      rfl
  | quoted spell =>
      intro rest text fuel laid stops enough
      obtain ⟨fuel, rfl, -⟩ := fueled enough
      obtain ⟨s, laid, same⟩ := laid.skipSpace (.quoted spell)
      refine ⟨s, laid, ?_⟩
      rw [same, Token.text_quoted_append, readValue, readQuoted_spell spell]
      rfl
  | noItems =>
      intro rest text fuel laid stops enough
      obtain ⟨fuel, rfl, -⟩ := fueled enough
      obtain ⟨s, laid, same⟩ := laid.sign (by decide)
      obtain ⟨s', laid, same'⟩ := laid.sign (by decide)
      refine ⟨s', laid, ?_⟩
      rw [same, readValue, same']
      rfl
  | noMembers =>
      intro rest text fuel laid stops enough
      obtain ⟨fuel, rfl, -⟩ := fueled enough
      obtain ⟨s, laid, same⟩ := laid.sign (by decide)
      obtain ⟨s', laid, same'⟩ := laid.sign (by decide)
      refine ⟨s', laid, ?_⟩
      rw [same, readValue, same']
      rfl
  | list row isTrail ih =>
      intro rest text fuel laid stops enough
      obtain rfl := none isTrail
      rw [List.length_cons, List.length_append] at enough
      obtain ⟨fuel, rfl, less⟩ := fueled enough
      simp only [List.cons_append, List.append_assoc, List.nil_append] at laid
      obtain ⟨s, laid, same⟩ := laid.sign (by decide)
      obtain ⟨s', laid', read⟩ := ih rest s fuel [] laid (by simpa [Nat.succ_le_iff] using less)
      refine ⟨s', laid', ?_⟩
      rw [same, readValue_list (row.opens laid rfl), read]
      rfl
  | object row isTrail ih =>
      intro rest text fuel laid stops enough
      obtain rfl := none isTrail
      rw [List.length_cons, List.length_append] at enough
      obtain ⟨fuel, rfl, less⟩ := fueled enough
      simp only [List.cons_append, List.append_assoc, List.nil_append] at laid
      obtain ⟨s, laid, same⟩ := laid.sign (by decide)
      obtain ⟨s', laid', read⟩ := ih rest s fuel [] laid (by simpa [Nat.succ_le_iff] using less)
      refine ⟨s', laid', ?_⟩
      rw [same, readValue_object (row.opens laid rfl), read]
  | item value ih =>
      intro rest text fuel done laid enough
      obtain ⟨fuel, rfl, less⟩ := fueled enough
      obtain ⟨s, laid, read⟩ := ih _ text fuel laid (stopsValue_sign (by decide)) less
      obtain ⟨s', laid, closes⟩ := laid.sign (by decide)
      exact ⟨s', laid, readItems_last read closes⟩
  | items value row first later =>
      intro rest text fuel done laid enough
      rw [List.length_append, List.length_cons] at enough
      obtain ⟨fuel, rfl, less⟩ := fueled enough
      rw [List.append_assoc, List.cons_append] at laid
      obtain ⟨s, laid, read⟩ := first _ text fuel laid (stopsValue_sign (by decide)) (by omega)
      obtain ⟨s', laid, comma⟩ := laid.sign (by decide)
      obtain ⟨s'', laid, others⟩ := later rest s' fuel (_ :: done) laid (by omega)
      refine ⟨s'', laid, ?_⟩
      rw [readItems_next read comma, others, List.reverse_cons, List.append_assoc]
      rfl
  | member spell value ih =>
      intro rest text fuel done laid enough
      rw [List.length_cons, List.length_cons] at enough
      obtain ⟨fuel, rfl, less⟩ := fueled enough
      obtain ⟨q, laid, same⟩ := laid.skipSpace (.quoted spell)
      obtain ⟨q', laid, colon⟩ := laid.sign (by decide)
      obtain ⟨s, laid, read⟩ := ih _ q' fuel laid (stopsValue_sign (by decide)) (by omega)
      obtain ⟨s', laid, closes⟩ := laid.sign (by decide)
      refine ⟨s', laid, ?_⟩
      rw [same, Token.text_quoted_append]
      exact readMembers_last spell colon read closes
  | members spell value row first later =>
      intro rest text fuel done laid enough
      rw [List.length_cons, List.length_cons, List.length_append, List.length_cons] at enough
      obtain ⟨fuel, rfl, less⟩ := fueled enough
      simp only [List.cons_append, List.append_assoc] at laid
      obtain ⟨q, laid, same⟩ := laid.skipSpace (.quoted spell)
      obtain ⟨q', laid, colon⟩ := laid.sign (by decide)
      obtain ⟨s, laid, read⟩ := first _ q' fuel laid (stopsValue_sign (by decide)) (by omega)
      obtain ⟨s', laid, comma⟩ := laid.sign (by decide)
      obtain ⟨s'', laid, others⟩ := later rest s' fuel _ laid (by omega)
      refine ⟨s'', laid, ?_⟩
      rw [same, Token.text_quoted_append, readMembers_next spell colon read comma]
      exact others

end Values

/-- **A text of the plain grammar is read as its value.** -/
theorem read_laid {ts : List Token} {text : List Char} {v : Value}
    (laid : Laid Blank Blank ts text)
    (writes : Writes false (some Text.maxDigits) ts (.value v)) :
    read (String.ofList text) = .ok v := by
  have enough : ts.length ≤ (skipSpace text).length + 1 := by
    obtain ⟨t, more, rfl, -⟩ := writes.starts
    have sound := List.forall_mem_cons.mp writes.sound
    obtain ⟨s, laid, same⟩ := laid.skipSpace sound.1
    have := laid.length_le sound.2
    rw [same, List.length_append, List.length_cons]
    omega
  have whole : Laid Blank Blank (ts ++ []) text := by rwa [List.append_nil]
  have stops : StopsValue [] := fun t first => by cases first
  obtain ⟨s, laid, value⟩ := writes.read [] text _ whole stops enough
  unfold read
  rw [String.toList_ofList]
  simp only [value, bind, Except.bind, laid.skipSpace_nil]
  rfl

end ClientForge.Json
