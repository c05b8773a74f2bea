/-
# ClientForge.Json.Reader -- documents from JSON text

The grammar is RFC 8259 with three more numbers, `NaN`, `Infinity` and `-Infinity`.  A
number without a point and an exponent is an integer, with a limit on its digits, every other
one the nearest double.  A repeated key keeps its first place and takes the last value.
`read` takes the whole text or nothing, and reports what is wrong first; every step takes at
least one character, so the length of the text bounds the recursion.
-/
import ClientForge.Data.Value
import ClientForge.Text.Integer

namespace ClientForge.Json

set_option autoImplicit false

/-- Why a text is not read. -/
inductive Fault where
  | malformed
  | number (fault : Text.IntegerFault)
  deriving DecidableEq

/-- What the grammar has no place for. -/
def malformed {α : Type} : Except Fault α := .error .malformed

/-- A blank between two tokens. -/
def isSpace (c : Char) : Bool := c == ' ' || c == '\t' || c == '\n' || c == '\r'

def skipSpace (s : List Char) : List Char := s.dropWhile isSpace

/-- The character of an escape that is a single letter or mark. -/
def simpleEscape? (c : Char) : Option Char :=
  if c = '"' ∨ c = '\\' ∨ c = '/' then some c
  else if c = 'b' then some (Char.ofNat 0x08)
  else if c = 'f' then some (Char.ofNat 0x0c)
  else if c = 'n' then some '\n'
  else if c = 'r' then some '\r'
  else if c = 't' then some '\t'
  else none

/-- The characters behind an opening quote up to the closing one, in reverse. -/
def readString : Nat → List Char → List Char → Option (String × List Char)
  | 0, _, _ => none
  | _ + 1, _, [] => none
  | fuel + 1, done, c :: rest =>
    if c = '"' then some (String.ofList done.reverse, rest)
    else if c.toNat < 0x20 then none
    else if c ≠ '\\' then readString fuel (c :: done) rest
    else
      match rest with
      | 'u' :: rest => do
        let (unit, rest) ← Text.readHex 4 0 rest
        match rest with
        | '\\' :: 'u' :: more =>
          match Text.isHighUnit unit, Text.readHex 4 0 more with
          | true, some (next, more) =>
            if Text.isLowUnit next then readString fuel (Text.charOfPair unit next :: done) more
            else readString fuel (Text.charOfUnit unit :: done) rest
          | _, _ => readString fuel (Text.charOfUnit unit :: done) rest
        | _ => readString fuel (Text.charOfUnit unit :: done) rest
      | e :: rest => do
        let c ← simpleEscape? e
        readString fuel (c :: done) rest
      | [] => none

/-- The digits at the start of a text, and the rest. -/
def takeDigits (s : List Char) : List Char × List Char :=
  (s.takeWhile Text.isAsciiDigit, s.dropWhile Text.isAsciiDigit)

/-- The digits behind a point, if the point has any. -/
def readFraction (s : List Char) : List Char × List Char :=
  match s with
  | '.' :: rest =>
    match takeDigits rest with
    | ([], _) => ([], s)
    | taken => taken
  | _ => ([], s)

/-- The value of an exponent, if it is complete. -/
def readExponent (s : List Char) : Option Int × List Char :=
  match s with
  | e :: rest =>
    if e = 'e' ∨ e = 'E' then
      let (negative, digits) :=
        match rest with
        | '-' :: more => (true, more)
        | '+' :: more => (false, more)
        | _ => (false, rest)
      match takeDigits digits with
      | ([], _) => (none, s)
      | (taken, rest) =>
        let n : Int := Text.digitsValue taken
        (some (if negative then -n else n), rest)
    else (none, s)
  | [] => (none, s)

/-- A number without its sign. -/
def readUnsigned (negative : Bool) (s : List Char) : Except Fault (Scalar × List Char) :=
  let whole :=
    match s with
    | '0' :: rest => (['0'], rest)
    | _ => takeDigits s
  match whole with
  | ([], _) => malformed
  | (digits, rest) =>
    let (fraction, rest) := readFraction rest
    let (exponent, rest) := readExponent rest
    if fraction.isEmpty && exponent.isNone then
      if Text.maxDigits < digits.length then .error (.number (.tooManyDigits digits.length))
      else .ok (.int (Text.signed negative (Text.digitsValue digits)), rest)
    else
      .ok (.float (Binary64.ofDecimal negative (Text.digitsValue (digits ++ fraction))
        (exponent.getD 0 - fraction.length)), rest)

/-- The words of the grammar. -/
def words : List (List Char × Scalar) :=
  [("null".toList, .null), ("true".toList, .bool true), ("false".toList, .bool false),
    ("NaN".toList, .float .notANumber), ("Infinity".toList, .float (.infinity false)),
    ("-Infinity".toList, .float (.infinity true))]

/-- The word at the start of a text. -/
def readWord (s : List Char) : Option (Scalar × List Char) :=
  words.findSome? fun (word, value) =>
    if word.isPrefixOf s then some (value, s.drop word.length) else none

/-- A word or a number. -/
def readPlain (s : List Char) : Except Fault (Scalar × List Char) :=
  match readWord s with
  | some found => .ok found
  | none =>
    match s with
    | '-' :: rest => readUnsigned true rest
    | _ => readUnsigned false s

/-- A string behind its opening quote. -/
def readQuoted (s : List Char) : Except Fault (String × List Char) :=
  match readString (s.length + 1) [] s with
  | some found => .ok found
  | none => malformed

mutual

/-- The value at the start of a text, and the rest. -/
def readValue : Nat → List Char → Except Fault (Value × List Char)
  | 0, _ => malformed
  | fuel + 1, s =>
    match s with
    | '"' :: rest => do
      let (text, rest) ← readQuoted rest
      return (.str text, rest)
    | '[' :: rest =>
      match skipSpace rest with
      | ']' :: rest => .ok (.list [], rest)
      | rest => readItems fuel [] rest
    | '\x7b' :: rest =>
      match skipSpace rest with
      | '\x7d' :: rest => .ok (.map [], rest)
      | rest => readMembers fuel [] rest
    | _ => (readPlain s).map fun (a, rest) => (.atom a, rest)

/-- The items of a list from the next one on, those read before in reverse. -/
def readItems : Nat → List Value → List Char → Except Fault (Value × List Char)
  | 0, _, _ => malformed
  | fuel + 1, done, s => do
    let (item, rest) ← readValue fuel s
    match skipSpace rest with
    | ',' :: rest => readItems fuel (item :: done) (skipSpace rest)
    | ']' :: rest => .ok (.list (item :: done).reverse, rest)
    | _ => malformed

/-- The members of an object from the next one on. -/
def readMembers : Nat → Entries → List Char → Except Fault (Value × List Char)
  | 0, _, _ => malformed
  | fuel + 1, done, s =>
    match s with
    | '"' :: rest => do
      let (key, rest) ← readQuoted rest
      match skipSpace rest with
      | ':' :: rest => do
        let (value, rest) ← readValue fuel (skipSpace rest)
        let done := Entries.put (.str key) value done
        match skipSpace rest with
        | ',' :: rest => readMembers fuel done (skipSpace rest)
        | '\x7d' :: rest => .ok (.map done, rest)
        | _ => malformed
      | _ => malformed
    | _ => malformed

end

/-- The document that a whole text writes. -/
def read (text : String) : Except Fault Value := do
  let s := skipSpace text.toList
  let (value, rest) ← readValue (s.length + 1) s
  match skipSpace rest with
  | [] => return value
  | _ => malformed

end ClientForge.Json
