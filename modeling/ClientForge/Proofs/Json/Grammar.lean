/-
# ClientForge.Proofs.Json.Grammar -- what a text writes

JSON is a grammar in two layers.  A text is a row of tokens, each behind a gap (`Laid`); the
tokens write a value (`Writes`).  What a gap may hold, and whether a comma may stand in front of a
closing bracket, is left open, so one grammar serves for plain JSON, where gaps are blank, and for
the settings files of a compiler, where they hold comments too (`WrittenWithComments`).

The value is determined by what is written.  A number without a point and an exponent is an
integer, every other one the double nearest to its decimal.  A string is spelled in pieces, some of
which are halves of a character (`Piece.join`).  Of the members of an object with the same key the
last one stands, at the place of the first.

The grammar has no limit on the digits of an integer, and the reader has one, so the limit is a
parameter.
-/
import ClientForge.Json.Comments
import ClientForge.Proofs.Data.Part
import ClientForge.Proofs.Text.Numerals
import ClientForge.Proofs.Text.Within

namespace ClientForge.Json

set_option autoImplicit false

open Text (IsNumeral digitsValue)

/-! ## Words -/

/-- The exponent of a number; a sign is a minus or not. -/
structure Exponent where
  capital : Bool
  sign : Option Bool
  digits : List Char
  numeral : IsNumeral digits

/-- A number by its parts.  Without digits behind the point there is no point. -/
structure Number where
  negative : Bool
  whole : List Char
  fraction : List Char
  exponent : Option Exponent
  isWhole : IsWhole whole
  behindPoint : fraction = [] ∨ IsNumeral fraction

namespace Exponent

def text (x : Exponent) : List Char :=
  (if x.capital then 'E' else 'e') ::
    ((x.sign.map fun minus => if minus then '-' else '+').toList ++ x.digits)

def value (x : Exponent) : Int := Text.signed (x.sign.getD false) (digitsValue x.digits)

end Exponent

namespace Number

/-- What stands behind the whole digits. -/
def tail (n : Number) : List Char :=
  (if n.fraction.isEmpty then [] else '.' :: n.fraction) ++
    (n.exponent.map Exponent.text).getD []

def text (n : Number) : List Char :=
  (if n.negative then "-" else "").toList ++ (n.whole ++ n.tail)

def isInteger (n : Number) : Bool := n.fraction.isEmpty && n.exponent.isNone

def value (n : Number) : Scalar :=
  if n.isInteger then .int (Text.signed n.negative (digitsValue n.whole))
  else .float (Binary64.ofDecimal n.negative (digitsValue (n.whole ++ n.fraction))
    ((n.exponent.map Exponent.value).getD 0 - n.fraction.length))

/-- An integer has at most so many digits. -/
def Within (most : Option Nat) (n : Number) : Prop :=
  n.isInteger = true → ∀ limit, most = some limit → n.whole.length ≤ limit

end Number

/-- A word that writes a scalar. -/
inductive WordWrites (most : Option Nat) : List Char → Scalar → Prop
  | null : WordWrites most "null".toList .null
  | bool (b : Bool) : WordWrites most (toString b).toList (.bool b)
  | number (n : Number) : n.Within most → WordWrites most n.text n.value

/-! ## Strings -/

/-- A piece of a string: a character, or a UTF-16 unit. -/
inductive Piece where
  | char (c : Char)
  | unit (n : Nat)

namespace Piece

open Text (hexValue?)

/-- How a piece is spelled. -/
inductive Spelled : Piece → List Char → Prop
  | raw {c : Char} : 0x20 ≤ c.toNat → c ≠ '"' → c ≠ '\\' → Spelled (.char c) [c]
  | escape {e c : Char} : simpleEscape? e = some c → Spelled (.char c) ['\\', e]
  | unit {c₁ c₂ c₃ c₄ : Char} {d₁ d₂ d₃ d₄ : Nat} : hexValue? c₁ = some d₁ →
      hexValue? c₂ = some d₂ → hexValue? c₃ = some d₃ → hexValue? c₄ = some d₄ →
      Spelled (.unit (((d₁ * 16 + d₂) * 16 + d₃) * 16 + d₄)) ['\\', 'u', c₁, c₂, c₃, c₄]

/-- The characters of pieces; the two halves of a character are one. -/
def join : List Piece → List Char
  | [] => []
  | .char c :: rest => c :: join rest
  | .unit high :: .unit low :: rest =>
    if Text.isHighUnit high && Text.isLowUnit low then Text.charOfPair high low :: join rest
    else Text.charOfUnit high :: join (.unit low :: rest)
  | .unit n :: rest => Text.charOfUnit n :: join rest

/-- Pieces that make a text. -/
inductive Spell : List Piece → List Char → Prop
  | nil : Spell [] []
  | cons {p : Piece} {ps : List Piece} {text body : List Char} :
      p.Spelled text → Spell ps body → Spell (p :: ps) (text ++ body)

/-- The string that pieces make. -/
def string (ps : List Piece) : String := String.ofList (join ps)

end Piece

/-- Text without quotes, backslashes and control characters spells itself. -/
theorem Piece.spell_raw {w : List Char}
    (plain : ∀ c ∈ w, 0x20 ≤ c.toNat ∧ c ≠ '"' ∧ c ≠ '\\') :
    Piece.Spell (w.map .char) w := by
  induction w with
  | nil => exact .nil
  | cons c rest ih =>
      obtain ⟨⟨printable, noQuote, noSlash⟩, later⟩ := List.forall_mem_cons.mp plain
      exact .cons (.raw printable noQuote noSlash) (ih later)

/-! ## Tokens and gaps -/

inductive Token where
  | sign (c : Char)
  | word (text : List Char)
  /-- A string, by what stands between its quotes. -/
  | quoted (body : List Char)

/-- What a token is written as. -/
def Token.text : Token → List Char
  | .sign c => [c]
  | .word text => text
  | .quoted body => '"' :: (body ++ ['"'])

/-- A row of tokens, each behind a gap, up to the end of the text. -/
inductive Laid (gap ending : List Char → Prop) : List Token → List Char → Prop
  | nil {rest : List Char} : ending rest → Laid gap ending [] rest
  | cons {t : Token} {ts : List Token} {g rest : List Char} :
      gap g → Laid gap ending ts rest → Laid gap ending (t :: ts) (g ++ (t.text ++ rest))

/-- Nothing but blanks. -/
def Blank (g : List Char) : Prop := ∀ c ∈ g, isSpace c = true

instance (g : List Char) : Decidable (Blank g) :=
  inferInstanceAs (Decidable (∀ c ∈ g, isSpace c = true))

/-- The end of a line. -/
def IsBreak (c : Char) : Prop := c = '\n' ∨ c = '\r'

instance (c : Char) : Decidable (IsBreak c) :=
  inferInstanceAs (Decidable (c = '\n' ∨ c = '\r'))

/-- Blanks and comments.  A block comment ends where it can first. -/
inductive Gap : List Char → Prop
  | nil : Gap []
  | blank {c : Char} {g : List Char} : isSpace c = true → Gap g → Gap (c :: g)
  | line {body g : List Char} {c : Char} : (∀ d ∈ body, ¬ IsBreak d) → IsBreak c → Gap g →
      Gap ('/' :: '/' :: (body ++ c :: g))
  | block {body g : List Char} : ¬ ['*', '/'] <:+: body → Gap g →
      Gap ('/' :: '*' :: (body ++ '*' :: '/' :: g))

/-- A gap at the end of a text, where a line may end with the text. -/
inductive Ending : List Char → Prop
  | gap {g : List Char} : Gap g → Ending g
  | line {g body : List Char} : Gap g → (∀ d ∈ body, ¬ IsBreak d) →
      Ending (g ++ '/' :: '/' :: body)

/-! ## Values -/

/-- What a row of tokens may write: a value, or what stands between the brackets of a list or an
object. -/
inductive Phrase where
  | value (v : Value)
  | items (vs : List Value)
  | members (fields : Entries)

/-- What may stand in front of a closing bracket. -/
def IsTrail (commas : Bool) (ts : List Token) : Prop :=
  ts = [] ∨ commas = true ∧ ts = [.sign ',']

open Piece (Spell)

/-- The grammar of JSON; commas may stand in front of closing brackets, or not. -/
inductive Writes (commas : Bool) (most : Option Nat) : List Token → Phrase → Prop
  | word {text : List Char} {a : Scalar} : WordWrites most text a →
      Writes commas most [.word text] (.value (.atom a))
  | quoted {body : List Char} {ps : List Piece} : Spell ps body →
      Writes commas most [.quoted body] (.value (.str (Piece.string ps)))
  | noItems : Writes commas most [.sign '[', .sign ']'] (.value (.list []))
  | list {row trail : List Token} {vs : List Value} : Writes commas most row (.items vs) →
      IsTrail commas trail →
      Writes commas most (.sign '[' :: (row ++ (trail ++ [.sign ']']))) (.value (.list vs))
  | noMembers : Writes commas most [.sign '\x7b', .sign '\x7d'] (.value (.map []))
  | object {row trail : List Token} {fields : Entries} :
      Writes commas most row (.members fields) → IsTrail commas trail →
      Writes commas most (.sign '\x7b' :: (row ++ (trail ++ [.sign '\x7d'])))
        (.value (.map (Entries.putAll [] fields)))
  | item {ts : List Token} {v : Value} : Writes commas most ts (.value v) →
      Writes commas most ts (.items [v])
  | items {ts row : List Token} {v : Value} {vs : List Value} :
      Writes commas most ts (.value v) → Writes commas most row (.items vs) →
      Writes commas most (ts ++ .sign ',' :: row) (.items (v :: vs))
  | member {body : List Char} {ps : List Piece} {ts : List Token} {v : Value} : Spell ps body →
      Writes commas most ts (.value v) →
      Writes commas most (.quoted body :: .sign ':' :: ts)
        (.members [(.str (Piece.string ps), v)])
  | members {body : List Char} {ps : List Piece} {ts row : List Token} {v : Value}
      {fields : Entries} : Spell ps body → Writes commas most ts (.value v) →
      Writes commas most row (.members fields) →
      Writes commas most (.quoted body :: .sign ':' :: (ts ++ .sign ',' :: row))
        (.members ((.str (Piece.string ps), v) :: fields))

/-- A text that is JSON with comments between tokens, and commas in front of closing brackets. -/
def WrittenWithComments (most : Option Nat) (text : List Char) (v : Value) : Prop :=
  ∃ ts, Laid Gap Ending ts text ∧ Writes true most ts (.value v)

/-! ## Sound tokens -/

/-- Letters and digits, by their numbers. -/
theorem isAlphanum_iff {c : Char} : c.isAlphanum = true ↔
    (('A'.val ≤ c.val ∧ c.val ≤ 'Z'.val) ∨ 'a'.val ≤ c.val ∧ c.val ≤ 'z'.val) ∨
      '0'.val ≤ c.val ∧ c.val ≤ '9'.val := by
  have upper : c.isUpper = decide ('A'.val ≤ c.val ∧ c.val ≤ 'Z'.val) := rfl
  have lower : c.isLower = (decide ('a'.val ≤ c.val) && decide (c.val ≤ 'z'.val)) := rfl
  have digit : c.isDigit = (decide ('0'.val ≤ c.val) && decide (c.val ≤ '9'.val)) := rfl
  show ((c.isUpper || c.isLower) || c.isDigit) = true ↔ _
  rw [upper, lower, digit]
  simp only [Bool.or_eq_true, Bool.and_eq_true, decide_eq_true_eq]

/-- A character of a word. -/
def IsWordChar (c : Char) : Prop := c.isAlphanum = true ∨ c = '+' ∨ c = '-' ∨ c = '.'

instance (c : Char) : Decidable (IsWordChar c) :=
  inferInstanceAs (Decidable (c.isAlphanum = true ∨ c = '+' ∨ c = '-' ∨ c = '.'))

theorem IsWordChar.ne {c d : Char} (word : IsWordChar c) (other : ¬ IsWordChar d) : c ≠ d :=
  fun same => other (same ▸ word)

/-- Signs of the grammar. -/
def signs : List Char := ['[', ']', '\x7b', '\x7d', ',', ':']

/-- A token that the grammar has a use for. -/
inductive Token.Sound : Token → Prop
  | sign {c : Char} : c ∈ signs → Sound (.sign c)
  | word {text : List Char} : text ≠ [] → (∀ c ∈ text, IsWordChar c) → Sound (.word text)
  | quoted {body : List Char} {ps : List Piece} : Spell ps body → Sound (.quoted body)

/-- A token that closes a list or an object. -/
def Token.closes : Token → Bool
  | .sign c => c == '\x7d' || c == ']'
  | _ => false

section Words

variable {most : Option Nat} {text : List Char} {a : Scalar}

theorem isWordChar_of_isNumeral {digits : List Char} (numeral : IsNumeral digits) :
    ∀ c ∈ digits, IsWordChar c := by
  intro c member
  have digit : c.isDigit = true := by
    simpa [Char.isDigit, Text.isAsciiDigit, Char.le_def] using numeral.each c member
  exact Or.inl (by simp [Char.isAlphanum, digit])

theorem Exponent.isWordChar (x : Exponent) : ∀ c ∈ x.text, IsWordChar c := by
  have letter : ∀ capital : Bool, IsWordChar (if capital then 'E' else 'e') := by decide
  have sign : ∀ c ∈ (x.sign.map fun minus => if minus then '-' else '+').toList,
      IsWordChar c := by
    cases x.sign with
    | none => simp
    | some minus => cases minus <;> decide
  rw [Exponent.text, List.forall_mem_cons, List.forall_mem_append]
  exact ⟨letter x.capital, sign, isWordChar_of_isNumeral x.numeral⟩

theorem Number.isWordChar (n : Number) : ∀ c ∈ n.text, IsWordChar c := by
  have sign : ∀ c ∈ (if n.negative then "-" else "").toList, IsWordChar c := by
    split <;> decide
  have point : ∀ c ∈ (if n.fraction.isEmpty then [] else '.' :: n.fraction), IsWordChar c := by
    split
    · simp
    · rename_i some
      have numeral := n.behindPoint.resolve_left (by simpa using some)
      exact List.forall_mem_cons.mpr ⟨by decide, isWordChar_of_isNumeral numeral⟩
  have power : ∀ c ∈ (n.exponent.map Exponent.text).getD [], IsWordChar c := by
    cases n.exponent with
    | none => simp
    | some x => exact x.isWordChar
  rw [Number.text, Number.tail]
  simp only [List.forall_mem_append]
  exact ⟨sign, isWordChar_of_isNumeral n.isWhole.toIsNumeral, point, power⟩

theorem WordWrites.sound (writes : WordWrites most text a) : (Token.word text).Sound := by
  cases writes with
  | null => exact .word (by decide) (by decide)
  | bool b => cases b <;> exact .word (by decide) (by decide)
  | number n within => exact .word (by simp [Number.text, n.isWhole.nonempty]) n.isWordChar

end Words

section Grammar

variable {commas : Bool} {most : Option Nat} {ts : List Token} {p : Phrase}

theorem Writes.sound (writes : Writes commas most ts p) : ∀ t ∈ ts, t.Sound := by
  have sign {c : Char} (is : c ∈ signs) : (Token.sign c).Sound := .sign is
  have trailing {trail : List Token} (isTrail : IsTrail commas trail) :
      ∀ t ∈ trail, t.Sound := by
    rcases isTrail with rfl | ⟨-, rfl⟩
    · simp
    · simpa using sign (by decide)
  induction writes with
  | word writes => simpa using writes.sound
  | quoted spell => simpa using Token.Sound.quoted spell
  | noItems => simpa using ⟨sign (by decide), sign (by decide)⟩
  | noMembers => simpa using ⟨sign (by decide), sign (by decide)⟩
  | list row isTrail ih =>
      simp only [List.forall_mem_cons, List.forall_mem_append]
      exact ⟨sign (by decide), ih, trailing isTrail, sign (by decide), by simp⟩
  | object row isTrail ih =>
      simp only [List.forall_mem_cons, List.forall_mem_append]
      exact ⟨sign (by decide), ih, trailing isTrail, sign (by decide), by simp⟩
  | item value ih => exact ih
  | items value row first later =>
      simp only [List.forall_mem_cons, List.forall_mem_append]
      exact ⟨first, sign (by decide), later⟩
  | member spell value ih =>
      simp only [List.forall_mem_cons]
      exact ⟨.quoted spell, sign (by decide), ih⟩
  | members spell value row first later =>
      simp only [List.forall_mem_cons, List.forall_mem_append]
      exact ⟨.quoted spell, sign (by decide), first, sign (by decide), later⟩

/-- Nothing that is written begins with a closing bracket. -/
theorem Writes.starts (writes : Writes commas most ts p) :
    ∃ t rest, ts = t :: rest ∧ t.closes = false := by
  induction writes with
  | item value ih => exact ih
  | items value row first later =>
      obtain ⟨t, rest, rfl, opens⟩ := first
      exact ⟨t, _, rfl, opens⟩
  | _ => exact ⟨_, _, rfl, rfl⟩

end Grammar

end ClientForge.Json
