/-
# ClientForge.Proofs.Types.Literals -- literal types

The literals of an enumeration are written as types: numbers and strings as they are, lists as
tuples, maps as object types (`literalTree`).  A string is read back to its end if no line ends
in it where it is written as it is (`Text.InLine`), and the count of open brackets is right
behind it if it closes as many brackets as it opens (`Text.Balanced`).  Then the text of a literal
has its tree (`shows_literal`).  All of this holds of texts that have neither brackets nor
quotes, backslashes or line breaks (`Text.Tame`).
-/
import ClientForge.Proofs.Text.Strings
import ClientForge.Proofs.Types.Writing

namespace ClientForge

set_option autoImplicit false

namespace Text

/-- A character that is neither a bracket nor a quote, a backslash or a line break. -/
def IsTame (c : Char) : Prop :=
  c ∉ ['(', ')', '\x7b', '\x7d', '[', ']', '<', '>', '\'', '"', '\\', '\n', '\r']

instance (c : Char) : Decidable (IsTame c) := inferInstanceAs (Decidable (¬ _))

/-- A text without brackets, quotes, backslashes and line breaks. -/
def Tame (s : String) : Prop := ∀ c ∈ s.toList, IsTame c

instance (s : String) : Decidable (Tame s) := inferInstanceAs (Decidable (∀ c ∈ s.toList, IsTame c))

/-- As many brackets are closed in a text as are opened. -/
def Balanced (s : String) : Prop := TypeText.balance s.toList = 0

instance (s : String) : Decidable (Balanced s) :=
  inferInstanceAs (Decidable (TypeText.balance s.toList = 0))

/-- A text without line breaks. -/
def InLine (s : String) : Prop := ∀ c ∈ s.toList, ¬ (c = '\n' ∨ c = '\r')

instance (s : String) : Decidable (InLine s) :=
  inferInstanceAs (Decidable (∀ c ∈ s.toList, ¬ (c = '\n' ∨ c = '\r')))

/-- A text that may stand between apostrophes as it is. -/
def Raw (s : String) : Prop := ∀ c ∈ s.toList, Script.IsRaw '\'' c

instance (s : String) : Decidable (Raw s) :=
  inferInstanceAs (Decidable (∀ c ∈ s.toList, c ≠ '\'' ∧ c ≠ '\\' ∧ ¬ (c = '\n' ∨ c = '\r')))

theorem isBracketless_of_isTame {c : Char} (tame : IsTame c) : TypeText.IsBracketless c := by
  simp only [IsTame, List.mem_cons, not_or] at tame
  simp only [TypeText.IsBracketless, TypeExpr.isOpening, TypeExpr.isClosing, Bool.or_eq_false_iff,
    beq_eq_false_iff_ne]
  tauto

theorem Tame.balanced {s : String} (tame : Tame s) : Balanced s :=
  TypeText.balance_of_bracketless fun c member => isBracketless_of_isTame (tame c member)

theorem Tame.raw {s : String} (tame : Tame s) : Raw s := by
  intro c member
  have plain := tame c member
  simp only [IsTame, List.mem_cons, List.not_mem_nil, or_false, not_or] at plain
  unfold Script.IsRaw
  tauto

theorem Raw.inLine {s : String} (raw : Raw s) : InLine s := fun c member => (raw c member).2.2

end Text

open Text (Tame Balanced InLine Raw)

/-- The strings in a value, and the keys of its maps, are tame. -/
structure Value.TameTexts (v : Value) : Prop where
  strings : ∀ s, (Value.str s).PartOf v → Tame s
  keys : ∀ entries, (Value.map entries).PartOf v → ∀ entry ∈ entries, ∀ s, entry.1 = .str s → Tame s

/-- The strings in a value, and the keys of its maps, close as many brackets as they open. -/
structure Value.BalancedTexts (v : Value) : Prop where
  strings : ∀ s, (Value.str s).PartOf v → Balanced s
  keys : ∀ entries, (Value.map entries).PartOf v → ∀ entry ∈ entries, ∀ s,
    entry.1 = .str s → Balanced s

theorem Value.BalancedTexts.part {v w : Value} (balanced : w.BalancedTexts) (part : v.PartOf w) :
    v.BalancedTexts where
  strings := fun s inner => balanced.strings s (inner.trans part)
  keys := fun entries inner => balanced.keys entries (inner.trans part)

/-- What a literal type has to keep to so that its text is not taken for anything else: a string
is written as it is, but for apostrophes and backslashes. -/
structure Value.Readable (v : Value) : Prop where
  texts : v.BalancedTexts
  inLine : ∀ s, v = .str s → InLine s

theorem Value.TameTexts.readable {v : Value} (tame : v.TameTexts) : v.Readable where
  texts := ⟨fun s part => (tame.strings s part).balanced,
    fun entries part entry member s same => (tame.keys entries part entry member s same).balanced⟩
  inLine := fun s same => (tame.strings s (same ▸ .refl)).raw.inLine

theorem Value.TameTexts.part {v w : Value} (tame : w.TameTexts) (part : v.PartOf w) :
    v.TameTexts where
  strings := fun s inner => tame.strings s (inner.trans part)
  keys := fun entries inner => tame.keys entries (inner.trans part)

theorem Value.tameTexts_atom {a : Scalar} (tame : ∀ s, a = .str s → Tame s) :
    (Value.atom a).TameTexts where
  strings := fun s part => by
    cases part
    exact tame s rfl
  keys := fun entries part => by cases part

theorem Value.tameTexts_list {items : List Value} (each : ∀ item ∈ items, item.TameTexts) :
    (Value.list items).TameTexts where
  strings := fun s part => by
    cases part with
    | item member part => exact (each _ member).strings s part
  keys := fun entries part => by
    cases part with
    | item member part => exact (each _ member).keys entries part

/-- What a tame value lists is tame. -/
theorem Value.TameTexts.element {v : Value} (tame : v.TameTexts) {items : List Value}
    (elements : v.elements? = some items) {item : Value} (inside : item ∈ items) :
    item.TameTexts := by
  cases v with
  | list listed =>
      cases elements
      exact tame.part (.item inside .refl)
  | map entries =>
      cases elements
      obtain ⟨entry, member, rfl⟩ := List.mem_map.mp inside
      exact Value.tameTexts_atom (tame.keys entries .refl entry member)
  | atom a =>
      cases a with
      | str text =>
          cases elements
          obtain ⟨c, member, rfl⟩ := List.mem_map.mp inside
          refine Value.tameTexts_atom fun s same d there => ?_
          have single : String.ofList [c] = s := Scalar.str.inj same
          rw [← single, String.toList_ofList, List.mem_singleton] at there
          rw [there]
          exact tame.strings text .refl c member
      | _ => cases elements

/-! ## Trees of literals -/

mutual

/-- A value as a type, with its strings as they are written in JSON. -/
def jsonTree : Value → TypeTree
  | .atom a => .leaf ((Json.printScalar? a).getD "")
  | .list items => .tuple (jsonTrees items)
  | .map entries => .object (jsonMembers entries)

def jsonTrees : List Value → List TypeTree
  | [] => []
  | v :: rest => jsonTree v :: jsonTrees rest

def jsonMembers : List (Scalar × Value) → List (TreeKey × TypeTree)
  | [] => []
  | (k, v) :: rest => (.property ((Json.printKey? k).getD "") false, jsonTree v) :: jsonMembers rest

end

/-- A value as a type. -/
def literalTree : Value → TypeTree
  | .atom (.str s) => .leaf (Literal.quote s)
  | v => jsonTree v

namespace TypeText

/-! ## Characters of literals -/

theorem isBracketless_of_isWordChar {c : Char} (word : isWordChar c = true) : IsBracketless c :=
  isBracketless_of_not_mem (isWordChar_not_mem word)

/-- The letters and digits of ASCII are characters of words. -/
theorem isWordChar_of_range {c : Char} {lo hi : Nat} (range : Text.isNameRange lo hi = true)
    (low : lo ≤ c.toNat) (high : c.toNat ≤ hi) : isWordChar c = true := by
  simp [isWordChar, Text.isNameCode_of_range range low high]

theorem isWordChar_of_isDigit {c : Char} (digit : c.isDigit = true) : isWordChar c = true := by
  simp only [Char.isDigit, Bool.and_eq_true, decide_eq_true_eq, ge_iff_le] at digit
  have range : Text.isNameRange 0x30 0x39 = true := by decide
  exact isWordChar_of_range range digit.1 digit.2

theorem isWordChar_hex {width n : Nat} : ∀ c ∈ Text.hex width n, isWordChar c = true := by
  have digits : ∀ d < 16, isWordChar ((Nat.toDigits 16 d).headD '0') = true := by decide
  induction width generalizing n with
  | zero => simp [Text.hex]
  | succ width ih =>
      intro c member
      rw [Text.hex, List.mem_append] at member
      rcases member with before | last
      · exact ih c before
      · rw [List.mem_singleton.mp last]
        exact digits _ (Nat.mod_lt _ (by decide))

/-- A text that is one word. -/
def IsWord (text : String) : Prop := text.toList ≠ [] ∧ ∀ c ∈ text.toList, isWordChar c = true

instance (text : String) : Decidable (IsWord text) :=
  inferInstanceAs (Decidable (text.toList ≠ [] ∧ ∀ c ∈ text.toList, isWordChar c = true))

theorem IsWord.reads {text : String} (word : IsWord text) :
    Reads text.toList [.tree (.leaf text)] := by
  have reads := Reads.word word.1 word.2
  rwa [String.ofList_toList] at reads

theorem IsWord.balanced {text : String} (word : IsWord text) : Balanced text :=
  balance_of_bracketless fun c member => isBracketless_of_isWordChar (word.2 c member)

/-! ## Strings -/

theorem isRaw_of_isWordChar {quote c : Char} (quotes : isQuote quote = true)
    (word : isWordChar c = true) : Script.IsRaw quote c := by
  have others : ∀ c ∈ ['\'', '"', '\\', '\n', '\r'], isWordChar c = false := by decide
  have differs {d : Char} (among : d ∈ ['\'', '"', '\\', '\n', '\r']) : c ≠ d := by
    rintro rfl
    rw [others c among] at word
    cases word
  have other : c ≠ quote := by
    simp only [isQuote, Bool.or_eq_true, beq_iff_eq] at quotes
    rcases quotes with rfl | rfl <;> exact differs (by decide)
  exact ⟨other, differs (by decide), not_or.mpr ⟨differs (by decide), differs (by decide)⟩⟩

/-- Characters that go on with a string as they are. -/
theorem continuesQuoted_raw {quote : Char} {body : List Char}
    (raw : ∀ c ∈ body, Script.IsRaw quote c) : ContinuesQuoted quote body := by
  have whole := ContinuesQuoted.flatMap (f := fun c => [c]) fun c member => by
    obtain ⟨other, backslash, inLine⟩ := raw c member
    exact continuesQuoted_char other backslash inLine
  rwa [List.flatMap_singleton'] at whole

/-- Escapes that keep the brackets of each character keep those of a text. -/
theorem balance_flatMap {f : Char → List Char} {body : List Char}
    (each : ∀ c ∈ body, balance (f c) = balance [c]) : balance (body.flatMap f) = balance body := by
  induction body with
  | nil => rfl
  | cons c body ih =>
      rw [List.flatMap_cons, balance_append, each c List.mem_cons_self,
        ih fun d member => each d (List.mem_cons_of_mem _ member), ← balance_append,
        List.singleton_append]

/-- A character of a string goes on with it, and counts like the character. -/
theorem quoteChar_continues {c : Char} (inLine : ¬ (c = '\n' ∨ c = '\r')) :
    ContinuesQuoted '\'' (Literal.escapeChar c) ∧ balance (Literal.escapeChar c) = balance [c] := by
  unfold Literal.escapeChar
  split
  · have backslash : balance ['\\'] = 0 := by decide
    refine ⟨continuesQuoted_escape (by decide), ?_⟩
    rw [← List.singleton_append, balance_append, backslash, Int.zero_add]
  · rename_i plain
    rw [not_or] at plain
    exact ⟨continuesQuoted_char plain.1 plain.2 inLine, rfl⟩

/-- A string between apostrophes. -/
theorem reads_quote {s : String} (balanced : Balanced s) (inLine : InLine s) :
    Reads (Literal.quote s).toList [.tree (.leaf (Literal.quote s))] := by
  have quoted := Reads.quoted (by decide : isQuote '\'' = true)
    (.flatMap fun c member => (quoteChar_continues (inLine c member)).1)
    ((balance_flatMap fun c member => (quoteChar_continues (inLine c member)).2).trans balanced)
  unfold Literal.quote
  rw [String.toList_ofList]
  exact quoted

theorem isWordChar_of_isIdentifierChar {c : Char} (identifier : Naming.isIdentifierChar c = true) :
    isWordChar c = true := by
  have small : Text.isNameRange 0x61 0x7a = true := by decide
  have capital : Text.isNameRange 0x41 0x5a = true := by decide
  have digit : Text.isNameRange 0x30 0x39 = true := by decide
  simp only [Naming.isIdentifierChar, Naming.isIdentifierStart, Naming.isSmall, Naming.isCapital,
    Text.isAsciiDigit, Bool.or_eq_true, Bool.and_eq_true, decide_eq_true_eq,
    beq_iff_eq] at identifier
  rcases identifier with (((⟨low, high⟩ | ⟨low, high⟩) | rfl) | rfl) | ⟨low, high⟩
  · exact isWordChar_of_range small low high
  · exact isWordChar_of_range capital low high
  · decide
  · decide
  · exact isWordChar_of_range digit low high

/-- An identifier is a word, if no line break stands behind it. -/
theorem isWord_of_isIdentifier {name : String} (inLine : InLine name)
    (identifier : Naming.isIdentifier name.toList = true) : IsWord name := by
  unfold IsWord
  cases chars : name.toList with
  | nil =>
      rw [chars] at identifier
      cases identifier
  | cons c rest =>
      rw [chars, Naming.isIdentifier, Bool.and_eq_true, Bool.or_eq_true] at identifier
      obtain ⟨first, others⟩ := identifier
      have starts : Naming.isIdentifierChar c = true := by
        rw [Naming.isIdentifierChar, first, Bool.true_or]
      have each : ∀ d ∈ rest, Naming.isIdentifierChar d = true := by
        rcases others with all | lineFeed
        · exact List.all_eq_true.mp all
        · rw [Bool.and_eq_true, beq_iff_eq] at lineFeed
          have last : '\n' ∈ name.toList := by
            rw [chars]
            exact List.mem_cons_of_mem _ (List.mem_of_getLast? lineFeed.1)
          exact absurd (Or.inl rfl) (inLine _ last)
      refine ⟨by simp, fun d member => isWordChar_of_isIdentifierChar ?_⟩
      rcases List.mem_cons.mp member with rfl | later
      · exact starts
      · exact each d later

/-- The key of a property, with quotes or without. -/
theorem reads_propertyKey {name : String} (balanced : Balanced name) (raw : Raw name) :
    Reads (Naming.propertyKey name).toList [.tree (.leaf (Naming.propertyKey name))] := by
  unfold Naming.propertyKey
  split
  · exact (isWord_of_isIdentifier raw.inLine ‹_›).reads
  · have quoted := Reads.quoted (by decide : isQuote '\'' = true) (continuesQuoted_raw raw) balanced
    have chars : ("'" ++ name ++ "'").toList = '\'' :: (name.toList ++ ['\'']) := by
      simp [String.toList_append]
    rw [← chars, String.ofList_toList] at quoted
    exact quoted

/-- A character that is not printable is no bracket. -/
theorem balance_singleton {c : Char} (control : c.toNat < 0x20 ∨ 0x7e < c.toNat) :
    balance [c] = 0 := by
  have other {d : Char} (printable : 0x20 ≤ d.toNat ∧ d.toNat ≤ 0x7e) : c ≠ d := by
    rintro rfl
    omega
  refine balance_of_bracketless fun d member => ?_
  rw [List.mem_singleton.mp member]
  simp [IsBracketless, TypeExpr.isOpening, TypeExpr.isClosing, other]

/-- An escaped character of JSON goes on with a string, and counts like the character. -/
theorem escapeChar_continues (c : Char) :
    ContinuesQuoted '"' (Json.escapeChar c) ∧ balance (Json.escapeChar c) = balance [c] := by
  have letter {d : Char} (bracketless : IsBracketless d) :
      ContinuesQuoted '"' ['\\', d] ∧ balance ['\\', d] = 0 :=
    ⟨continuesQuoted_escape (by decide),
      balance_of_bracketless (by simpa using ⟨by decide, bracketless⟩)⟩
  have unit (n : Nat) :
      ContinuesQuoted '"' (Json.unitEscape n) ∧ balance (Json.unitEscape n) = 0 := by
    have digits : ∀ d ∈ Text.hex 4 n, isWordChar d = true := isWordChar_hex
    have raw : ∀ d ∈ Text.hex 4 n, Script.IsRaw '"' d := fun d member =>
      isRaw_of_isWordChar (by decide) (digits d member)
    obtain ⟨goesOn, balanced⟩ := letter (d := 'u') (by decide)
    have none : balance (Text.hex 4 n) = 0 :=
      balance_of_bracketless fun d member => isBracketless_of_isWordChar (digits d member)
    refine ⟨goesOn.append (continuesQuoted_raw raw), ?_⟩
    rw [Json.unitEscape, balance_append, balanced, none, Int.add_zero]
  unfold Json.escapeChar
  split
  · rename_i same
    rw [same]
    exact letter (by decide)
  split
  · rename_i same
    rw [same]
    exact letter (by decide)
  split
  · rename_i same
    rw [same]
    exact letter (by decide)
  split
  · rename_i same
    rw [same]
    exact letter (by decide)
  split
  · rename_i same
    rw [same]
    exact letter (by decide)
  split
  · rw [balance_singleton (c := c) (by omega)]
    exact letter (by decide)
  split
  · rw [balance_singleton (c := c) (by omega)]
    exact letter (by decide)
  split
  · rename_i noQuote noBackslash noFeed noReturn _ _ _ _
    exact ⟨continuesQuoted_char noQuote noBackslash (not_or.mpr ⟨noFeed, noReturn⟩), rfl⟩
  split
  · rw [balance_singleton (c := c) (by omega)]
    exact unit _
  · rw [balance_singleton (c := c) (by omega), balance_append, (unit _).2, (unit _).2]
    exact ⟨(unit _).1.append (unit _).1, rfl⟩

/-- A string between double quotes. -/
theorem reads_jsonQuote {s : String} (balanced : Balanced s) :
    Reads (Json.quote s).toList [.tree (.leaf (Json.quote s))] := by
  have quoted := Reads.quoted (by decide : isQuote '"' = true)
    (.flatMap fun c _ => (escapeChar_continues c).1)
    ((balance_flatMap fun c _ => (escapeChar_continues c).2).trans balanced)
  unfold Json.quote
  rw [String.toList_ofList]
  exact quoted

/-! ## Numbers -/

theorem IsWord.append {a b : String} (first : ∀ c ∈ a.toList, isWordChar c = true)
    (second : IsWord b) : IsWord (a ++ b) := by
  rw [IsWord, String.toList_append]
  refine ⟨by simp [second.1], fun c member => ?_⟩
  rcases List.mem_append.mp member with here | there
  · exact first c here
  · exact second.2 c there

theorem isWordChar_toDigits {n : Nat} : ∀ c ∈ Nat.toDigits 10 n, isWordChar c = true :=
  fun _ member =>
  isWordChar_of_isDigit (Nat.isDigit_of_mem_toDigits (by decide) (by decide) member)

theorem isWord_nat (n : Nat) : IsWord n.repr := by
  rw [IsWord, Nat.toList_repr]
  exact ⟨Nat.toDigits_ne_nil, isWordChar_toDigits⟩

theorem isWord_int (i : Int) : IsWord (toString i) := by
  rw [Int.toString_eq_repr]
  cases i with
  | ofNat n => exact isWord_nat n
  | negSucc n => exact .append (a := "-") (by decide) (isWord_nat (n + 1))

theorem mem_dropZeros {digits : List Char} {c : Char} (member : c ∈ Binary64.dropZeros digits) :
    c ∈ digits := by
  induction digits with
  | nil => cases member
  | cons d rest ih =>
      rw [Binary64.dropZeros] at member
      split at member
      · split at member
        · cases member
        · rw [List.mem_singleton.mp member]
          exact List.mem_cons_self
      · rename_i kept
        rcases List.mem_cons.mp member with rfl | later
        · exact List.mem_cons_self
        · exact List.mem_cons_of_mem _ (ih later)

/-- The layout of a number is a word if its digits are. -/
theorem layout_isWord {digits : List Char} (each : ∀ c ∈ digits, isWordChar c = true)
    (point : Int) :
    Binary64.layout digits point ≠ [] ∧
      ∀ c ∈ Binary64.layout digits point, isWordChar c = true := by
  have zeros (n : Nat) : ∀ c ∈ List.replicate n '0', isWordChar c = true := fun c member => by
    rw [List.eq_of_mem_replicate member]
    decide
  have first (n : Nat) : ∀ c ∈ digits.take n, isWordChar c = true := fun c member =>
    each c (List.mem_of_mem_take member)
  have rest (n : Nat) : ∀ c ∈ digits.drop n, isWordChar c = true := fun c member =>
    each c (List.mem_of_mem_drop member)
  have zero : isWordChar '0' = true := by decide
  have dot : isWordChar '.' = true := by decide
  have exponent : isWordChar 'e' = true ∧ isWordChar '-' = true ∧ isWordChar '+' = true := by decide
  unfold Binary64.layout
  dsimp only
  split
  · split
    · refine ⟨by simp, ?_⟩
      simp only [List.forall_mem_append, List.forall_mem_cons]
      exact ⟨⟨⟨zero, dot, by simp⟩, zeros _⟩, each⟩
    · split
      · refine ⟨by simp, ?_⟩
        simp only [List.forall_mem_append, List.forall_mem_cons]
        exact ⟨⟨each, zeros _⟩, dot, zero, by simp⟩
      · refine ⟨by simp, ?_⟩
        simp only [List.forall_mem_append, List.forall_mem_cons]
        exact ⟨⟨first _, dot, by simp⟩, rest _⟩
  · refine ⟨by simp, ?_⟩
    simp only [List.forall_mem_append, List.forall_mem_cons]
    refine ⟨⟨⟨first _, ?_⟩, exponent.1, ?_, by simp⟩, ?_⟩
    · split
      · simp
      · exact List.forall_mem_cons.mpr ⟨dot, rest _⟩
    · split
      · exact exponent.2.1
      · exact exponent.2.2
    · split
      · exact List.forall_mem_cons.mpr ⟨zero, isWordChar_toDigits⟩
      · exact isWordChar_toDigits

theorem isWord_float (x : Binary64) : IsWord x.text := by
  have sign : ∀ c ∈ (if x.negative then "-" else "").toList, isWordChar c = true := by
    split <;> decide
  unfold Binary64.text
  split
  · decide
  dsimp only
  split
  · exact .append sign (by decide)
  split
  · exact .append sign (by decide)
  · have digits : ∀ c ∈ Binary64.dropZeros (Nat.toDigits 10 x.shortest.1), isWordChar c = true :=
      fun c member => isWordChar_toDigits c (mem_dropZeros member)
    refine .append sign ?_
    rw [IsWord, String.toList_ofList]
    exact layout_isWord digits _

/-- A scalar in JSON is a string or a word. -/
theorem printScalar?_eq_some {a : Scalar} {text : String} (run : Json.printScalar? a = some text) :
    (∃ s, a = .str s ∧ text = Json.quote s) ∨ IsWord text := by
  cases a with
  | str s => exact Or.inl ⟨s, rfl, (Option.some.inj run).symm⟩
  | null =>
      obtain rfl := Option.some.inj run
      exact Or.inr (by decide)
  | bool b =>
      obtain rfl := Option.some.inj run
      exact Or.inr (by cases b <;> decide)
  | int i =>
      obtain rfl := Option.some.inj run
      exact Or.inr (isWord_int i)
  | float x =>
      obtain rfl := Option.some.inj run
      exact Or.inr (isWord_float x)
  | date d => cases run
  | moment m => cases run

/-! ## Literals -/

theorem reads_scalar {a : Scalar} {text : String} (run : Json.printScalar? a = some text)
    (balanced : ∀ s, a = .str s → Balanced s) : Reads text.toList [.tree (.leaf text)] := by
  rcases printScalar?_eq_some run with ⟨s, same, rfl⟩ | word
  · exact reads_jsonQuote (balanced s same)
  · exact word.reads

theorem reads_key {k : Scalar} {text : String} (run : Json.printKey? k = some text)
    (balanced : ∀ s, k = .str s → Balanced s) : Reads text.toList [.tree (.leaf text)] := by
  unfold Json.printKey? at run
  split at run
  · rename_i s
    obtain rfl := Option.some.inj run
    exact reads_jsonQuote (balanced s rfl)
  · rename_i noString
    obtain ⟨inner, scalar, rfl⟩ := Option.map_eq_some_iff.mp run
    rcases printScalar?_eq_some scalar with ⟨s, same, -⟩ | word
    · exact absurd same (noString s)
    · exact reads_jsonQuote word.balanced

/-- The texts of lists of values, given those of the values. -/
theorem shows_items {items : List Value} {texts : List String}
    (each : ∀ v ∈ items, ∀ text, Json.print? v = some text → Shows [] text (jsonTree v))
    (run : Json.printItems? items = some texts) :
    List.Forall₂ (Shows [.union, .intersection]) texts (jsonTrees items) := by
  induction items generalizing texts with
  | nil =>
      cases run
      exact .nil
  | cons v rest ih =>
      obtain ⟨text, first, run⟩ := Option.bind_eq_some_iff.mp run
      obtain ⟨others, later, run⟩ := Option.bind_eq_some_iff.mp run
      cases run
      exact .cons (each v List.mem_cons_self text first).all
        (ih (fun w member => each w (List.mem_cons_of_mem _ member)) later)

theorem shows_entries {entries : Entries} {texts : List String}
    (keys : ∀ entry ∈ entries, ∀ s, entry.1 = .str s → Balanced s)
    (each : ∀ entry ∈ entries, ∀ text, Json.print? entry.2 = some text →
      Shows [] text (jsonTree entry.2))
    (run : Json.printEntries? entries = some texts) :
    List.Forall₂ ShowsMember texts (jsonMembers entries) := by
  induction entries generalizing texts with
  | nil =>
      cases run
      exact .nil
  | cons entry rest ih =>
      obtain ⟨k, v⟩ := entry
      obtain ⟨key, named, run⟩ := Option.bind_eq_some_iff.mp run
      obtain ⟨text, first, run⟩ := Option.bind_eq_some_iff.mp run
      obtain ⟨others, later, run⟩ := Option.bind_eq_some_iff.mp run
      cases run
      have member : ShowsMember (key ++ ": " ++ text)
          (.property ((Json.printKey? k).getD "") false, jsonTree v) := by
        have written := ShowsMember.property (reads_key named (keys _ List.mem_cons_self)) false
          (each _ List.mem_cons_self text first)
        rw [named]
        simpa using written
      exact .cons member (ih (fun e member => keys e (List.mem_cons_of_mem _ member))
        (fun e member => each e (List.mem_cons_of_mem _ member)) later)

/-- JSON reads as a type. -/
theorem shows_json {v : Value} (balanced : v.BalancedTexts) {text : String}
    (run : Json.print? v = some text) : Shows [] text (jsonTree v) := by
  induction v generalizing text with
  | atom a =>
      have run : Json.printScalar? a = some text := run
      have reads := reads_scalar run fun s same => balanced.strings s (same ▸ .refl)
      rw [jsonTree, run]
      exact .leaf reads
  | list items ih =>
      obtain ⟨texts, printed, run⟩ := Option.bind_eq_some_iff.mp run
      cases run
      exact .tuple (shows_items
        (fun v member text => ih v member (balanced.part (.item member .refl))) printed)
  | map entries ih =>
      obtain ⟨texts, printed, run⟩ := Option.bind_eq_some_iff.mp run
      cases run
      have members := shows_entries (balanced.keys entries .refl)
        (fun entry member text => ih entry member (balanced.part (.entry member .refl))) printed
      refine .braced members (Or.inl rfl) separates_comma (String.intercalate ", " texts)
        (fun P reads => reads) ?_
      simp [String.toList_append]

/-- A literal without parts is a leaf. -/
theorem literalTree_atom {a : Scalar} {text : String}
    (run : Literal.typeText? (.atom a) = some text) : literalTree (.atom a) = .leaf text := by
  cases a with
  | str s =>
      rw [← Option.some.inj run]
      rfl
  | _ =>
      simp only [Literal.typeText?, Json.print?] at run
      simp only [literalTree, jsonTree, run, Option.getD_some]

/-- **A literal reads as its type.** -/
theorem shows_literal {v : Value} (readable : v.Readable) {text : String}
    (run : Literal.typeText? v = some text) : Shows [] text (literalTree v) := by
  cases v with
  | atom a =>
      cases a with
      | str s =>
          obtain rfl := Option.some.inj run
          exact .leaf (reads_quote (readable.texts.strings s .refl) (readable.inLine s rfl))
      | _ => exact shows_json readable.texts run
  | _ => exact shows_json readable.texts run

end TypeText

end ClientForge
