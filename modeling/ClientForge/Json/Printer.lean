/-
# ClientForge.Json.Printer -- documents as JSON text

One line, a blank after every comma and colon, and nothing but printable ASCII: any other
character is written as one or two escapes of four hexadecimal digits, one for each of its
UTF-16 units.  A key that is no string is written as the text of the key.  A date has no
form, so `print?` has no answer for a document that holds one.
-/
import ClientForge.Data.Value
import ClientForge.Text.Pieces

namespace ClientForge.Json

set_option autoImplicit false

/-- One UTF-16 unit as an escape. -/
def unitEscape (n : Nat) : List Char := ['\\', 'u'] ++ Text.hex 4 n

/-- One character of a string. -/
def escapeChar (c : Char) : List Char :=
  if c = '"' then ['\\', '"']
  else if c = '\\' then ['\\', '\\']
  else if c = '\n' then ['\\', 'n']
  else if c = '\r' then ['\\', 'r']
  else if c = '\t' then ['\\', 't']
  else if c.toNat = 0x0c then ['\\', 'f']
  else if c.toNat = 0x08 then ['\\', 'b']
  else if 0x20 ≤ c.toNat ∧ c.toNat ≤ 0x7e then [c]
  else if c.toNat < 0x10000 then unitEscape c.toNat
  else
    unitEscape (0xd800 + (c.toNat - 0x10000) / 0x400) ++
      unitEscape (0xdc00 + (c.toNat - 0x10000) % 0x400)

/-- A string between double quotes. -/
def quote (s : String) : String :=
  String.ofList ('"' :: s.toList.flatMap escapeChar ++ ['"'])

/-- A scalar; a date has no form. -/
def printScalar? : Scalar → Option String
  | .null => some "null"
  | .bool b => some (if b then "true" else "false")
  | .int i => some (toString i)
  | .float x => some x.text
  | .str s => some (quote s)
  | .date _ => none
  | .moment _ => none

/-- A key: the text of the scalar, as a string. -/
def printKey? : Scalar → Option String
  | .str s => some (quote s)
  | a => (printScalar? a).map quote

mutual

/-- A document on one line. -/
def print? : Value → Option String
  | .atom a => printScalar? a
  | .list items => do
    let parts ← printItems? items
    some ("[" ++ String.intercalate ", " parts ++ "]")
  | .map entries => do
    let parts ← printEntries? entries
    some ("\x7b" ++ String.intercalate ", " parts ++ "\x7d")

def printItems? : List Value → Option (List String)
  | [] => some []
  | v :: rest => do
    let part ← print? v
    let parts ← printItems? rest
    some (part :: parts)

def printEntries? : List (Scalar × Value) → Option (List String)
  | [] => some []
  | (k, v) :: rest => do
    let key ← printKey? k
    let part ← print? v
    let parts ← printEntries? rest
    some ((key ++ ": " ++ part) :: parts)

end

end ClientForge.Json
