/-
# ClientForge.Proofs.Text.Strings -- strings as they are written in programs

A string literal stands for a list of UTF-16 units: a character between its quotes for the one
or two units of the character, an escape for one unit, for the units of a code point or for
nothing at all (`body?`).  The units make a string if no half of a pair stands alone
(`string?`).

What an escape stands for is always shorter than what is written (`body?_length`), so
characters that are written as they are come back as they are exactly if none of them is a
quote, a backslash or the end of a line (`string?_raw_iff`).  With their own escapes the strings
of type literals come back unless they hold the end of a line (`string?_quote`), and those of
JSON always (`string?_jsonQuote`).
-/
import ClientForge.Proofs.Data.Attempt
import ClientForge.Types.Literal

namespace ClientForge.Script

set_option autoImplicit false

/-! ## UTF-16 units -/

/-- The UTF-16 units of a code point. -/
def unitsOf (n : Nat) : List Nat :=
  if n < 0x10000 then [n]
  else [0xd800 + (n - 0x10000) / 0x400, 0xdc00 + (n - 0x10000) % 0x400]

/-- The UTF-16 units of a character. -/
def units (c : Char) : List Nat := unitsOf c.toNat

/-- A unit that is a character on its own. -/
def isWhole (n : Nat) : Bool := n < 0xd800 || (0xdfff < n && n < 0x10000)

/-- The characters that UTF-16 units stand for; none if half of a pair stands alone. -/
def ofUnits? : List Nat → Option (List Char)
  | [] => some []
  | [u] => if isWhole u then some [Char.ofNat u] else none
  | u :: v :: rest =>
    if isWhole u then (ofUnits? (v :: rest)).map (Char.ofNat u :: ·)
    else if Text.isHighUnit u && Text.isLowUnit v then
      (ofUnits? rest).map (Text.charOfPair u v :: ·)
    else none

theorem ofUnits?_cons {u : Nat} (whole : isWhole u = true) (rest : List Nat) :
    ofUnits? (u :: rest) = (ofUnits? rest).map (Char.ofNat u :: ·) := by
  cases rest with
  | nil => simp [ofUnits?, whole]
  | cons v rest => simp [ofUnits?, whole]

theorem ofUnits?_units (c : Char) (rest : List Nat) :
    ofUnits? (units c ++ rest) = (ofUnits? rest).map (c :: ·) := by
  have valid : c.toNat.isValidChar := c.valid
  have bound : c.toNat < 0xd800 ∨ 0xdfff < c.toNat ∧ c.toNat < 0x110000 := valid
  unfold units unitsOf
  split
  · have whole : isWhole c.toNat = true := by
      simp only [isWhole, Bool.or_eq_true, Bool.and_eq_true, decide_eq_true_eq]
      omega
    rw [List.singleton_append, ofUnits?_cons whole, Char.ofNat_toNat]
  · rename_i pair
    have part : isWhole (0xd800 + (c.toNat - 0x10000) / 0x400) = false := by
      simp only [isWhole, Bool.or_eq_false_iff, Bool.and_eq_false_iff, decide_eq_false_iff_not]
      omega
    have both : (Text.isHighUnit (0xd800 + (c.toNat - 0x10000) / 0x400) &&
        Text.isLowUnit (0xdc00 + (c.toNat - 0x10000) % 0x400)) = true := by
      simp only [Text.isHighUnit, Text.isLowUnit, Bool.and_eq_true, decide_eq_true_eq]
      omega
    have same : Text.charOfPair (0xd800 + (c.toNat - 0x10000) / 0x400)
        (0xdc00 + (c.toNat - 0x10000) % 0x400) = c := by
      refine (congrArg Char.ofNat ?_).trans (Char.ofNat_toNat c)
      omega
    rw [List.cons_append, List.cons_append, List.nil_append, ofUnits?,
      if_neg (Bool.eq_false_iff.mp part), if_pos both, same]

/-- The units of a string make the string. -/
theorem ofUnits?_flatMap (s : List Char) : ofUnits? (s.flatMap units) = some s := by
  induction s with
  | nil => rfl
  | cons c rest ih => rw [List.flatMap_cons, ofUnits?_units, ih, Option.map_some]

theorem length_units (c : Char) : (units c).length ≤ 2 := by
  unfold units unitsOf
  split <;> simp

theorem length_units_of_isWhole {u : Nat} (whole : isWhole u = true) :
    (units (Char.ofNat u)).length = 1 := by
  simp only [isWhole, Bool.or_eq_true, Bool.and_eq_true, decide_eq_true_eq] at whole
  have valid : u.isValidChar := by
    rcases whole with low | ⟨low, high⟩
    · exact Or.inl low
    · exact Or.inr ⟨low, by omega⟩
  have same : (Char.ofNat u).toNat = u := by
    rw [Char.ofNat, dif_pos valid]
    rfl
  rw [units, same, unitsOf, if_pos (by omega)]
  rfl

/-- A string has no more units than it is made from. -/
theorem length_of_ofUnits? {us : List Nat} {s : List Char} (made : ofUnits? us = some s) :
    (s.flatMap units).length ≤ us.length := by
  induction us using ofUnits?.induct generalizing s with
  | case1 =>
      cases made
      simp
  | case2 u whole =>
      rw [ofUnits?, if_pos whole] at made
      cases made
      simp [length_units_of_isWhole whole]
  | case3 u part =>
      rw [ofUnits?, if_neg part] at made
      cases made
  | case4 u v rest whole ih =>
      rw [ofUnits?, if_pos whole] at made
      obtain ⟨later, madeLater, rfl⟩ := Option.map_eq_some_iff.mp made
      have bound := ih madeLater
      rw [List.flatMap_cons, List.length_append, length_units_of_isWhole whole, List.length_cons]
      omega
  | case5 u v rest part both ih =>
      rw [ofUnits?, if_neg part, if_pos both] at made
      obtain ⟨later, madeLater, rfl⟩ := Option.map_eq_some_iff.mp made
      have bound := ih madeLater
      have pair := length_units (Text.charOfPair u v)
      rw [List.flatMap_cons, List.length_append, List.length_cons, List.length_cons]
      omega
  | case6 u v rest part alone =>
      rw [ofUnits?, if_neg part, if_neg alone] at made
      cases made

/-! ## Escapes -/

/-- Where the reader of a string stands: between characters, behind a backslash, in front of the
line feed of a line end that is escaped, behind the `u` of an escape, in an escape of a number of
digits, or in one in braces. -/
inductive Scan where
  | plain
  | escaped
  | returned
  | unicode
  | digits (remaining value : Nat)
  | braced (value : Option Nat)
  deriving DecidableEq

/-- The unit that a letter behind a backslash stands for. -/
def letterUnit? (c : Char) : Option Nat :=
  if c = 'b' then some 0x08
  else if c = 't' then some 0x09
  else if c = 'n' then some 0x0a
  else if c = 'v' then some 0x0b
  else if c = 'f' then some 0x0c
  else if c = 'r' then some 0x0d
  else none

/-- The end of a line; behind a backslash it stands for nothing. -/
def isLineEnd (c : Char) : Bool :=
  c == '\n' || c == '\r' || c.toNat == 0x2028 || c.toNat == 0x2029

/-- What one character in front of `next` stands for, and where the reader stands behind it; none
if the end of a line stands between characters, or an escape has no meaning. -/
def advance? (scan : Scan) (c : Char) (next : Option Char) : Option (List Nat × Scan) :=
  match scan with
  | .plain =>
    if c = '\\' then some ([], .escaped)
    else if c = '\n' ∨ c = '\r' then none
    else some (units c, .plain)
  | .escaped =>
    if c = 'x' then some ([], .digits 2 0)
    else if c = 'u' then some ([], .unicode)
    else if c = '0' ∧ next.any Text.isAsciiDigit = false then some ([0], .plain)
    else if Text.isAsciiDigit c then none
    else if c = '\r' ∧ next = some '\n' then some ([], .returned)
    else if isLineEnd c then some ([], .plain)
    else some ((letterUnit? c).elim (units c) ([·]), .plain)
  | .returned => some ([], .plain)
  | .unicode =>
    if c = '\x7b' then some ([], .braced none)
    else (Text.hexValue? c).map fun d => ([], .digits 3 d)
  | .digits remaining value =>
    (Text.hexValue? c).map fun d =>
      if remaining ≤ 1 then ([value * 16 + d], .plain)
      else ([], .digits (remaining - 1) (value * 16 + d))
  | .braced value =>
    if c = '\x7d' then value.map fun n => (unitsOf n, .plain)
    else (Text.hexValue? c).bind fun d =>
      let n := value.getD 0 * 16 + d
      if n < 0x110000 then some ([], .braced (some n)) else none

/-- The units of a string, up to the quote that ends the text; none if something follows the
quote. -/
def body? (quote : Char) : Scan → List Char → Option (List Nat)
  | _, [] => none
  | scan, c :: rest =>
    if scan = .plain ∧ c = quote then if rest.isEmpty then some [] else none
    else (advance? scan c rest.head?).bind fun (us, behind) =>
      (body? quote behind rest).map (us ++ ·)

/-- A character that opens a string, and ends it. -/
def isQuote (c : Char) : Bool := c == '\'' || c == '"'

/-- The string that a string literal stands for. -/
def string? : List Char → Option String
  | [] => none
  | quote :: rest =>
    if isQuote quote then ((body? quote .plain rest).bind ofUnits?).map String.ofList else none

/-! ## Characters and escapes that are read -/

/-- A part of a string that stands for these units, whatever is behind it. -/
def Passes (quote : Char) (before : Scan) (text : List Char) (us : List Nat) (behind : Scan) :
    Prop :=
  ∀ rest, body? quote before (text ++ rest) = (body? quote behind rest).map (us ++ ·)

/-- A part of a string that stands for these units, wherever it stands between characters. -/
def Stands (quote : Char) (text : List Char) (us : List Nat) : Prop :=
  Passes quote .plain text us .plain

section Passes

variable {quote : Char}

theorem Passes.append {before between behind : Scan} {a b : List Char} {us vs : List Nat}
    (first : Passes quote before a us between) (second : Passes quote between b vs behind) :
    Passes quote before (a ++ b) (us ++ vs) behind := by
  intro rest
  rw [List.append_assoc, first, second, Option.map_map]
  simp [Function.comp_def]

theorem Passes.char {before behind : Scan} {c : Char} {us : List Nat}
    (inside : ¬ (before = .plain ∧ c = quote))
    (moves : ∀ next, advance? before c next = some (us, behind)) :
    Passes quote before [c] us behind := by
  intro rest
  rw [List.singleton_append, body?, if_neg inside, moves, Option.bind_some]

namespace Stands

theorem append {a b : List Char} {us vs : List Nat} (first : Stands quote a us)
    (second : Stands quote b vs) : Stands quote (a ++ b) (us ++ vs) := Passes.append first second

theorem flatMap {f : Char → List Char} {g : Char → List Nat} {s : List Char}
    (each : ∀ c ∈ s, Stands quote (f c) (g c)) : Stands quote (s.flatMap f) (s.flatMap g) := by
  induction s with
  | nil => exact fun rest => by simp
  | cons c s ih =>
      rw [List.flatMap_cons, List.flatMap_cons]
      have later := ih fun d member => each d (List.mem_cons_of_mem _ member)
      exact (each c List.mem_cons_self).append later

/-- A character that is written as it is. -/
theorem char {c : Char} (other : c ≠ quote) (backslash : c ≠ '\\')
    (inLine : ¬ (c = '\n' ∨ c = '\r')) : Stands quote [c] (units c) := by
  have moves (next : Option Char) : advance? .plain c next = some (units c, .plain) := by
    rw [advance?, if_neg backslash, if_neg inLine]
  exact Passes.char (fun both => other both.2) moves

/-- A backslash in front of a character. -/
theorem escape {c : Char} {us : List Nat} (other : '\\' ≠ quote)
    (means : ∀ next, advance? .escaped c next = some (us, .plain)) : Stands quote ['\\', c] us :=
  have backslash : Passes quote .plain ['\\'] [] .escaped :=
    .char (fun both => other both.2) fun _ => rfl
  backslash.append (.char (fun both => by cases both.1) means)

/-- A backslash in front of a quote or a backslash. -/
theorem mark {c : Char} (other : '\\' ≠ quote) (isMark : c ∈ ['\'', '"', '\\']) :
    Stands quote ['\\', c] (units c) := by
  refine escape other fun next => ?_
  simp only [List.mem_cons, List.not_mem_nil, or_false] at isMark
  rcases isMark with rfl | rfl | rfl <;> rfl

/-- A backslash in front of a letter that has a meaning. -/
theorem letter {c : Char} {u : Nat} (other : '\\' ≠ quote)
    (isLetter : c ∈ ['b', 't', 'n', 'v', 'f', 'r']) (means : letterUnit? c = some u) :
    Stands quote ['\\', c] [u] := by
  refine escape other fun next => ?_
  simp only [List.mem_cons, List.not_mem_nil, or_false] at isLetter
  rcases isLetter with rfl | rfl | rfl | rfl | rfl | rfl <;> cases means <;> rfl

end Stands

end Passes

theorem hexValue?_hexDigit (n : Nat) : Text.hexValue? (Text.hexDigit n) = some (n % 16) := by
  have digits : ∀ d < 16, Text.hexValue? ((Nat.toDigits 16 d).headD '0') = some d := by decide
  exact digits _ (Nat.mod_lt _ (by decide))

/-- The escape of a unit stands for the unit. -/
theorem stands_unitEscape {quote : Char} (other : '\\' ≠ quote) {n : Nat} (small : n < 0x10000) :
    Stands quote (Json.unitEscape n) [n] := by
  have brace : Text.hexDigit (n / 16 / 16 / 16) ≠ '\x7b' := by
    have digits : ∀ d < 16, (Nat.toDigits 16 d).headD '0' ≠ '\x7b' := by decide
    exact digits _ (Nat.mod_lt _ (by decide))
  have backslash : Passes quote .plain ['\\'] [] .escaped :=
    .char (fun both => other both.2) fun _ => rfl
  have letter : Passes quote .escaped ['u'] [] .unicode :=
    .char (fun both => by cases both.1) fun _ => rfl
  have first : Passes quote .unicode [Text.hexDigit (n / 16 / 16 / 16)] []
      (.digits 3 (n / 16 / 16 / 16 % 16)) :=
    .char (fun both => by cases both.1) fun _ => by
      rw [advance?, if_neg brace, hexValue?_hexDigit, Option.map_some]
  have digit (k value d : Nat) : Passes quote (.digits (k + 2) value) [Text.hexDigit d] []
      (.digits (k + 1) (value * 16 + d % 16)) :=
    .char (fun both => by cases both.1) fun _ => by
      rw [advance?, hexValue?_hexDigit, Option.map_some, if_neg (by omega)]
      rfl
  have last (value d : Nat) :
      Passes quote (.digits 1 value) [Text.hexDigit d] [value * 16 + d % 16] .plain :=
    .char (fun both => by cases both.1) fun _ => by
      rw [advance?, hexValue?_hexDigit, Option.map_some, if_pos (by decide)]
  have whole : ((n / 16 / 16 / 16 % 16 * 16 + n / 16 / 16 % 16) * 16 + n / 16 % 16) * 16 + n % 16 =
      n := by omega
  have all := (((backslash.append letter).append first).append (digit 1 _ (n / 16 / 16))).append
    ((digit 0 _ (n / 16)).append (last _ n))
  rw [whole] at all
  exact all

/-- What stands for the units of a string between two quotes is the string. -/
theorem string?_of_stands {quote : Char} (quotes : isQuote quote = true) {text s : List Char}
    (stands : Stands quote text (s.flatMap units)) :
    string? (quote :: (text ++ [quote])) = some (String.ofList s) := by
  have closed : body? quote .plain [quote] = some [] := by rw [body?, if_pos ⟨rfl, rfl⟩]; rfl
  rw [string?, if_pos quotes, stands, closed, Option.map_some, List.append_nil, Option.bind_some,
    ofUnits?_flatMap, Option.map_some]

/-! ## Strings of type literals and of JSON -/

/-- A character between apostrophes, with a backslash in front if it has a meaning there. -/
theorem stands_escapeChar {c : Char} (inLine : ¬ (c = '\n' ∨ c = '\r')) :
    Stands '\'' (Literal.escapeChar c) (units c) := by
  unfold Literal.escapeChar
  split
  · rename_i marked
    refine .mark (by decide) ?_
    rcases marked with rfl | rfl <;> decide
  · rename_i plain
    rw [not_or] at plain
    exact .char plain.1 plain.2 inLine

/-- A string between apostrophes, with escapes for these and for backslashes. -/
theorem string?_quote {s : String} (inLine : ∀ c ∈ s.toList, ¬ (c = '\n' ∨ c = '\r')) :
    string? (Literal.quote s).toList = some s := by
  have stands : Stands '\'' (s.toList.flatMap Literal.escapeChar) (s.toList.flatMap units) :=
    .flatMap fun c member => stands_escapeChar (inLine c member)
  unfold Literal.quote
  rw [String.toList_ofList, List.cons_append, string?_of_stands (by decide) stands,
    String.ofList_toList]

/-- The end of a line has no escape, and ends the reading. -/
theorem body?_escapeChar_none {s : List Char} (broken : ∃ c ∈ s, c = '\n' ∨ c = '\r') :
    body? '\'' .plain (s.flatMap Literal.escapeChar ++ ['\'']) = none := by
  induction s with
  | nil => simp at broken
  | cons c rest ih =>
      rw [List.flatMap_cons, List.append_assoc]
      by_cases ends : c = '\n' ∨ c = '\r'
      · have plain : Literal.escapeChar c = [c] := by
          rcases ends with rfl | rfl <;> decide
        have other : c ≠ '\'' ∧ c ≠ '\\' := by
          rcases ends with rfl | rfl <;> decide
        rw [plain, List.singleton_append, body?, if_neg fun both => other.1 both.2, advance?,
          if_neg other.2, if_pos ends, Option.bind_none]
      · obtain ⟨d, member, broken⟩ := broken
        rcases List.mem_cons.mp member with rfl | later
        · exact absurd broken ends
        · rw [stands_escapeChar ends, ih ⟨d, later, broken⟩, Option.map_none]

/-- **A string between apostrophes** comes back if and only if no line ends in it. -/
theorem string?_quote_iff (s : String) :
    string? (Literal.quote s).toList = some s ↔ ∀ c ∈ s.toList, ¬ (c = '\n' ∨ c = '\r') := by
  constructor
  · intro read c member broken
    have none := body?_escapeChar_none ⟨c, member, broken⟩
    rw [Literal.quote, String.toList_ofList, List.cons_append, string?, if_pos (by decide), none]
      at read
    cases read
  · exact string?_quote

/-- A string of JSON. -/
theorem string?_jsonQuote (s : String) : string? (Json.quote s).toList = some s := by
  have stands : Stands '"' (s.toList.flatMap Json.escapeChar) (s.toList.flatMap units) := by
    refine .flatMap fun c _ => ?_
    have unit {n : Nat} (same : c.toNat = n) (small : n < 0x10000) : units c = [n] := by
      rw [units, unitsOf, same, if_pos small]
    unfold Json.escapeChar
    split
    · rename_i same
      rw [same]
      exact .mark (by decide) (by decide)
    split
    · rename_i same
      rw [same]
      exact .mark (by decide) (by decide)
    split
    · rename_i same
      rw [unit (n := 0x0a) (same ▸ rfl) (by decide)]
      exact .letter (by decide) (by decide) rfl
    split
    · rename_i same
      rw [unit (n := 0x0d) (same ▸ rfl) (by decide)]
      exact .letter (by decide) (by decide) rfl
    split
    · rename_i same
      rw [unit (n := 0x09) (same ▸ rfl) (by decide)]
      exact .letter (by decide) (by decide) rfl
    split
    · rename_i same
      rw [unit same (by decide)]
      exact .letter (by decide) (by decide) rfl
    split
    · rename_i same
      rw [unit same (by decide)]
      exact .letter (by decide) (by decide) rfl
    split
    · rename_i noQuote noBackslash noFeed noReturn _ _ _ _
      exact .char noQuote noBackslash (not_or.mpr ⟨noFeed, noReturn⟩)
    split
    · rename_i small
      rw [unit rfl small]
      exact stands_unitEscape (by decide) small
    · rename_i pair
      have bound : c.toNat < 0x110000 := by
        rcases c.valid with low | ⟨-, high⟩
        · exact Nat.lt_trans low (by decide)
        · exact high
      rw [units, unitsOf, if_neg pair]
      exact (stands_unitEscape (by decide) (by omega)).append
        (stands_unitEscape (by decide) (by omega))
  unfold Json.quote
  rw [String.toList_ofList, List.cons_append, string?_of_stands (by decide) stands,
    String.ofList_toList]

/-! ## Characters that are written as they are -/

theorem length_units_pos (c : Char) : 0 < (units c).length := by
  unfold units unitsOf
  split <;> simp

/-- How many units more than are still written may come of the escape that is being read. -/
def Scan.slack : Scan → Nat
  | .unicode => 1
  | .braced _ => 2
  | _ => 0

/-- An escape stands for no more units than have been written of it. -/
theorem advance?_length {scan behind : Scan} {c : Char} {next : Option Char} {us : List Nat}
    (moves : advance? scan c next = some (us, behind)) :
    us.length + behind.slack ≤ (units c).length + scan.slack := by
  have some := length_units_pos c
  have plain : Scan.plain.slack = 0 := rfl
  have digits (remaining value : Nat) : (Scan.digits remaining value).slack = 0 := rfl
  cases scan with
  | plain =>
      rw [advance?] at moves
      split at moves
      · cases moves
        exact Nat.zero_le _
      split at moves
      · cases moves
      · cases moves
        exact Nat.le_refl _
  | escaped =>
      rw [advance?] at moves
      split at moves
      · cases moves
        exact Nat.zero_le _
      split at moves
      · cases moves
        exact some
      split at moves
      · cases moves
        exact some
      split at moves
      · cases moves
      split at moves
      · cases moves
        exact Nat.zero_le _
      split at moves
      · cases moves
        exact Nat.zero_le _
      · cases moves
        cases letterUnit? c with
        | none => exact Nat.le_refl _
        | some u => exact some
  | returned =>
      cases moves
      exact Nat.zero_le _
  | unicode =>
      rw [advance?] at moves
      split at moves
      · cases moves
        exact Nat.succ_le_succ some
      · obtain ⟨d, -, same⟩ := Option.map_eq_some_iff.mp moves
        cases same
        exact Nat.zero_le _
  | digits remaining value =>
      obtain ⟨d, -, same⟩ := Option.map_eq_some_iff.mp moves
      split at same
      · cases same
        exact some
      · cases same
        exact Nat.zero_le _
  | braced value =>
      have room : (Scan.braced value).slack = 2 := rfl
      rw [advance?] at moves
      split at moves
      · obtain ⟨n, -, same⟩ := Option.map_eq_some_iff.mp moves
        cases same
        have few : (unitsOf n).length ≤ 2 := by
          unfold unitsOf
          split <;> simp
        omega
      · obtain ⟨d, -, moves⟩ := Option.bind_eq_some_iff.mp moves
        dsimp only at moves
        split at moves
        · cases moves
          exact Nat.le_add_left _ _
        · cases moves

/-- What is read of a string has no more units than what is written of it, its end included. -/
theorem body?_length {quote : Char} {scan : Scan} {text : List Char} {us : List Nat}
    (read : body? quote scan text = some us) :
    us.length + 1 ≤ (text.flatMap units).length + scan.slack := by
  induction text generalizing scan us with
  | nil => cases read
  | cons c rest ih =>
      have some := length_units_pos c
      rw [List.flatMap_cons, List.length_append]
      rw [body?] at read
      split at read
      · split at read
        · cases read
          rw [List.length_nil]
          omega
        · cases read
      · obtain ⟨⟨vs, behind⟩, moves, read⟩ := Option.bind_eq_some_iff.mp read
        obtain ⟨later, readLater, rfl⟩ := Option.map_eq_some_iff.mp read
        have step := advance?_length moves
        have bound := ih readLater
        rw [List.length_append]
        omega

/-- A character that is written as it is in a string: not its quote, not a backslash, and not the
end of a line. -/
def IsRaw (quote c : Char) : Prop := c ≠ quote ∧ c ≠ '\\' ∧ ¬ (c = '\n' ∨ c = '\r')

theorem isRaw_of_body? {quote : Char} (quotes : isQuote quote = true) {s : List Char}
    {us : List Nat} (read : body? quote .plain (s ++ [quote]) = some us)
    (whole : (s.flatMap units).length ≤ us.length) : ∀ c ∈ s, IsRaw quote c := by
  have single : (units quote).length = 1 := by
    simp only [isQuote, Bool.or_eq_true, beq_iff_eq] at quotes
    rcases quotes with rfl | rfl <;> decide
  induction s generalizing us with
  | nil => simp
  | cons c rest ih =>
      rw [List.flatMap_cons, List.length_append] at whole
      rw [List.cons_append, body?] at read
      split at read
      · rw [if_neg (by simp)] at read
        cases read
      rename_i inside
      have other : c ≠ quote := fun same => inside ⟨rfl, same⟩
      obtain ⟨⟨vs, behind⟩, moves, read⟩ := Option.bind_eq_some_iff.mp read
      obtain ⟨later, readLater, rfl⟩ := Option.map_eq_some_iff.mp read
      rw [advance?] at moves
      split at moves
      · -- an escape stands for less than what is written
        cases moves
        have bound := body?_length readLater
        have some := length_units_pos c
        have none : Scan.escaped.slack = 0 := rfl
        rw [List.flatMap_append, List.length_append, List.flatMap_singleton, single] at bound
        rw [List.nil_append] at whole
        omega
      rename_i backslash
      split at moves
      · cases moves
      rename_i inLine
      cases moves
      rw [List.length_append] at whole
      refine List.forall_mem_cons.mpr ⟨⟨other, backslash, inLine⟩, ih readLater ?_⟩
      omega

/-- **Characters that are written as they are** come back if and only if none of them has a
meaning in a string. -/
theorem string?_raw_iff {quote : Char} (quotes : isQuote quote = true) (s : String) :
    string? (quote :: (s.toList ++ [quote])) = some s ↔ ∀ c ∈ s.toList, IsRaw quote c := by
  constructor
  · intro read
    rw [string?, if_pos quotes] at read
    obtain ⟨cs, made, same⟩ := Option.map_eq_some_iff.mp read
    obtain ⟨us, body, made⟩ := Option.bind_eq_some_iff.mp made
    have chars : s.toList = cs := by rw [← same, String.toList_ofList]
    refine isRaw_of_body? quotes body ?_
    rw [chars]
    exact length_of_ofUnits? made
  · intro raw
    have stands : Stands quote (s.toList.flatMap fun c => [c]) (s.toList.flatMap units) :=
      .flatMap fun c member => by
        obtain ⟨other, backslash, inLine⟩ := raw c member
        exact .char other backslash inLine
    rw [List.flatMap_singleton'] at stands
    rw [string?_of_stands quotes stands, String.ofList_toList]

end ClientForge.Script
