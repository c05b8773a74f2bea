/-
# ClientForge.Yaml.Plain -- what a plain scalar stands for

A scalar without quotes may be a word with a meaning (null and the truth values), a number,
a date, or else a string.  The forms are tried in this order: truth value, number with a
point, integer, null, date.  An integer may be binary, octal (a leading zero), decimal,
hexadecimal or in base sixty; a number with a point needs the point, so `1e3` is a string,
and its exponent needs a sign.  Low lines between digits are left out.  What has the form of
a number or a date and yet is none is an error, not a string.
-/
import ClientForge.Data.Value
import ClientForge.Text.Pieces
import ClientForge.Failure

namespace ClientForge.Yaml

set_option autoImplicit false

/-- The words for true and false. -/
def truthWords : List (String × Bool) := [
  ("yes", true), ("Yes", true), ("YES", true), ("no", false), ("No", false), ("NO", false),
  ("true", true), ("True", true), ("TRUE", true), ("false", false), ("False", false),
  ("FALSE", false), ("on", true), ("On", true), ("ON", true), ("off", false),
  ("Off", false), ("OFF", false)]

/-- The words for null. -/
def nullWords : List String := ["", "~", "null", "Null", "NULL"]

def isDigitOrLine (c : Char) : Bool := Text.isAsciiDigit c || c == '_'

/-- The value of digits of a base, low lines left out. -/
def valueIn (base : Nat) (digits : List Char) : Nat :=
  (digits.filter (· != '_')).foldl (fun n c => n * base + (Text.hexValue? c).getD 0) 0

/-- A digit of a base, or a low line. -/
def isDigitIn (base : Nat) (c : Char) : Bool :=
  c == '_' || (Text.hexValue? c).any fun d => decide (d < base)

/-- One or two digits below sixty. -/
def isSexagesimalPart (part : List Char) : Bool :=
  part.all Text.isAsciiDigit &&
    (part.length == 1 || (part.length == 2 && part.head?.any (· ≤ '5')))

/-- Parts in base sixty. -/
def sexagesimal (parts : List (List Char)) : Nat :=
  parts.foldl (fun n part => n * 60 + valueIn 10 part) 0

/-- A decimal number that starts with a digit. -/
def startsWithDigit (s : List Char) : Bool := s.head?.any Text.isAsciiDigit

/-- The number that digits of a base write: there has to be one digit at least, and in base
ten there may not be too many. -/
def numeral (base : Nat) (digits : List Char) : Except Text.IntegerFault Nat :=
  let digits := digits.filter (· != '_')
  if digits.isEmpty then .error (.notInteger base "")
  else if base = 10 ∧ Text.maxDigits < digits.length then .error (.tooManyDigits digits.length)
  else .ok (valueIn base digits)

/-- An integer without its sign. -/
def natural? (s : List Char) : Option (Except Text.IntegerFault Nat) :=
  match s with
  | '0' :: 'b' :: rest =>
    if !rest.isEmpty && rest.all (isDigitIn 2) then some (numeral 2 rest) else none
  | '0' :: 'x' :: rest =>
    if !rest.isEmpty && rest.all (isDigitIn 16) then some (numeral 16 rest) else none
  | '0' :: rest => if rest.all (isDigitIn 8) then some (numeral 8 s) else none
  | _ =>
    if !startsWithDigit s then none
    else if s.all isDigitOrLine then some (numeral 10 s)
    else
      match Text.splitOn ':' s with
      | first :: more =>
        if first.all isDigitOrLine && more.all isSexagesimalPart then
          some ((numeral 10 first).map fun _ => sexagesimal (first :: more))
        else none
      | [] => none

/-- An integer. -/
def integer? (s : List Char) : Option (Except Text.IntegerFault Int) :=
  let (negative, digits) := Text.splitSign s
  (natural? digits).map fun n => n.map (Text.signed negative)

/-- The exponent of a number with a point: a sign has to stand before its digits. -/
def exponent? (s : List Char) : Option Int :=
  match s with
  | [] => some 0
  | e :: sign :: digits =>
    if (e = 'e' ∨ e = 'E') ∧ (sign = '+' ∨ sign = '-') ∧ !digits.isEmpty ∧
        digits.all Text.isAsciiDigit then
      let n : Int := Text.digitsValue digits
      some (if sign = '-' then -n else n)
    else none
  | _ => none

/-- A number with digits before and after a point. -/
def pointed? (negative : Bool) (whole fraction : List Char) : Option Binary64 :=
  let places := fraction.takeWhile isDigitOrLine
  (exponent? (fraction.dropWhile isDigitOrLine)).map fun e =>
    let places := places.filter (· != '_')
    Binary64.ofDecimal negative (valueIn 10 (whole ++ places)) (e - places.length)

/-- A number with a point. -/
def float? (s : List Char) : Option Binary64 :=
  let (negative, rest) := Text.splitSign s
  let word := String.ofList rest
  if word = ".inf" ∨ word = ".Inf" ∨ word = ".INF" then some (.infinity negative)
  else if s = rest ∧ (word = ".nan" ∨ word = ".NaN" ∨ word = ".NAN") then some .notANumber
  else
    match Text.cutAt '.' rest with
    | ([], some fraction) =>
      if s = rest ∧ startsWithDigit fraction then pointed? negative [] fraction else none
    | (whole, some fraction) =>
      if !startsWithDigit whole then none
      else if whole.all isDigitOrLine then pointed? negative whole fraction
      else
        match Text.splitOn ':' whole with
        | first :: more =>
          if first.all isDigitOrLine && more.all isSexagesimalPart &&
              fraction.all isDigitOrLine then
            let places := fraction.filter (· != '_')
            let n := sexagesimal (first :: more) * Nat.pow 10 places.length + valueIn 10 places
            some (Binary64.ofDecimal negative n (-(places.length : Int)))
          else none
        | [] => none
    | (_, none) => none

/-- Exactly so many digits, or up to that many. -/
def takeNumber (least most : Nat) (s : List Char) : Option (Nat × List Char) :=
  let digits := (s.takeWhile Text.isAsciiDigit).take most
  if least ≤ digits.length then some (Text.digitsValue digits, s.drop digits.length) else none

/-- A mark that has to stand next. -/
def takeMark (c : Char) : List Char → Option (List Char)
  | d :: rest => if d = c then some rest else none
  | [] => none

/-- The offset from universal time at the end of a time, in minutes. -/
def zone? (s : List Char) : Option (Option Int) :=
  match s.dropWhile fun c => c == ' ' || c == '\t' with
  | [] => if s.isEmpty then some none else none
  | 'Z' :: rest => if rest.isEmpty then some (some 0) else none
  | sign :: rest =>
    if sign = '+' ∨ sign = '-' then do
      let (hours, rest) ← takeNumber 1 2 rest
      let minutes ←
        match rest with
        | [] => some 0
        | _ => do
          let rest ← takeMark ':' rest
          let (minutes, rest) ← takeNumber 2 2 rest
          if rest.isEmpty then some minutes else none
      let total : Int := hours * 60 + minutes
      some (some (if sign = '-' then -total else total))
    else none

/-- The part of a time behind the date. -/
def timeOf? (date : CalendarDate) (s : List Char) : Option Moment := do
  let blank (c : Char) : Bool := c == ' ' || c == '\t'
  let rest ←
    match s with
    | c :: rest =>
      if c = 'T' ∨ c = 't' then some rest
      else if blank c then some (rest.dropWhile blank)
      else none
    | [] => none
  let (hour, rest) ← takeNumber 1 2 rest
  let rest ← takeMark ':' rest
  let (minute, rest) ← takeNumber 2 2 rest
  let rest ← takeMark ':' rest
  let (second, rest) ← takeNumber 2 2 rest
  let (fraction, rest) :=
    match rest with
    | '.' :: rest => (rest.takeWhile Text.isAsciiDigit, rest.dropWhile Text.isAsciiDigit)
    | _ => ([], rest)
  let offset ← zone? rest
  let digits := fraction.take 6
  let micro := Text.digitsValue digits * Nat.pow 10 (6 - digits.length)
  some ⟨date, hour, minute, second, micro, offset⟩

/-- A date, with or without a time. -/
def date? (s : List Char) : Option Scalar := do
  let (year, rest) ← takeNumber 4 4 s
  let rest ← takeMark '-' rest
  let (month, rest) ← takeNumber 1 2 rest
  let rest ← takeMark '-' rest
  let (day, rest) ← takeNumber 1 2 rest
  let date : CalendarDate := ⟨year, month, day⟩
  match rest with
  | [] => if s.length = 10 then some (.date date) else none
  | rest => (timeOf? date rest).map .moment

/-- A date or a time has to exist. -/
def checkedDate : Scalar → Attempt Scalar
  | .date d => (d.fault?.map fun fault => .error (.noSuchMoment fault)).getD (.ok (.date d))
  | .moment m => (m.fault?.map fun fault => .error (.noSuchMoment fault)).getD (.ok (.moment m))
  | a => .ok a

/-- What a plain scalar stands for. -/
def plainScalar (text : String) : Attempt Scalar :=
  let s := text.toList
  match truthWords.lookup text with
  | some b => .ok (.bool b)
  | none =>
    match float? s, integer? s with
    | some x, _ => .ok (.float x)
    | none, some (.ok i) => .ok (.int i)
    | none, some (.error fault) => .error (.badInteger fault)
    | none, none =>
      if text ∈ nullWords then .ok .null
      else
        match date? s with
        | some a => checkedDate a
        | none => .ok (.str text)

end ClientForge.Yaml
