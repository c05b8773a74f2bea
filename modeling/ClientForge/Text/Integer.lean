/-
# ClientForge.Text.Integer -- whole numbers as people write them

Blanks around the number do not count, the information separators of ASCII aside, nor does a
single low line between two digits; there may be a sign, and the digits may be those of any
script.  A number with too many digits is refused before anything behind it is looked at.
-/
import ClientForge.Text.Alphanumeric
import ClientForge.Text.Quoted

namespace ClientForge.Text

set_option autoImplicit false

/-- Why a text is not read as a whole number. -/
inductive IntegerFault where
  | notInteger (base : Nat) (text : String)
  | tooManyDigits (count : Nat)
  deriving DecidableEq

/-- The most digits that a number may have. -/
def maxDigits : Nat := 4300

/-- How much of a text a message shows, quotes and escapes counted. -/
def shownLength : Nat := 200

def IntegerFault.message : IntegerFault → String
  | .notInteger base text =>
    "invalid literal for int() with base " ++ toString base ++ ": " ++
      String.ofList ((quoted text).toList.take shownLength)
  | .tooManyDigits count =>
    "Exceeds the limit (" ++ toString maxDigits ++
      " digits) for integer string conversion: value has " ++ toString count ++
      " digits; use sys.set_int_max_str_digits() to increase the limit"

/-- The digits up to the first character that is neither a digit nor a low line, and the
rest; a low line has to stand between two digits. -/
def leadingDigits : Bool → List Char → Option (List Nat × List Char)
  | behindDigit, [] => if behindDigit then some ([], []) else none
  | behindDigit, c :: rest =>
    if c = '_' then if behindDigit then leadingDigits false rest else none
    else
      match decimalDigit? c with
      | some d => (leadingDigits true rest).map fun (digits, rest) => (d :: digits, rest)
      | none => if behindDigit then some ([], c :: rest) else none

/-- The number that decimal digits write. -/
def decimalValue (digits : List Nat) : Nat := digits.foldl (fun n d => n * 10 + d) 0

/-- A blank that may stand around a number. -/
def isMargin (c : Char) : Bool := isBlank c && !(0x1c ≤ c.toNat && c.toNat ≤ 0x1f)

/-- The sign of a number, a minus or not, and the rest. -/
def splitSign : List Char → Bool × List Char
  | '-' :: rest => (true, rest)
  | '+' :: rest => (false, rest)
  | s => (false, s)

/-- A number with its sign. -/
def signed (negative : Bool) (n : Nat) : Int := if negative then -(n : Int) else n

/-- The number that a text writes. -/
def integer (s : String) : Except IntegerFault Int :=
  let (negative, s') := splitSign (trim isMargin s.toList)
  match leadingDigits false s' with
  | none => .error (.notInteger 10 s)
  | some (digits, rest) =>
    if maxDigits < digits.length then .error (.tooManyDigits digits.length)
    else if rest.isEmpty then .ok (signed negative (decimalValue digits))
    else .error (.notInteger 10 s)

end ClientForge.Text
