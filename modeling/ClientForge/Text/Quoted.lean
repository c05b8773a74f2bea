/-
# ClientForge.Text.Quoted -- a text between quotes in a message

A message quotes a text between apostrophes, or between double quotes if the text holds an
apostrophe and no double quote.  The quote, the backslash and everything that is not
printable are escaped.
-/
import ClientForge.Text.Pieces
import ClientForge.Text.Printable

namespace ClientForge.Text

set_option autoImplicit false

/-- The quote around a text. -/
def quoteFor (s : List Char) : Char :=
  if s.contains '\'' && !s.contains '"' then '"' else '\''

/-- One character between the given quotes. -/
def quotedChar (quote c : Char) : List Char :=
  if c = quote ∨ c = '\\' then ['\\', c]
  else if c = '\t' then ['\\', 't']
  else if c = '\n' then ['\\', 'n']
  else if c = '\r' then ['\\', 'r']
  else if isPrintable c then [c]
  else if c.toNat < 0x100 then ['\\', 'x'] ++ hex 2 c.toNat
  else if c.toNat < 0x10000 then ['\\', 'u'] ++ hex 4 c.toNat
  else ['\\', 'U'] ++ hex 8 c.toNat

/-- A text as a message quotes it. -/
def quoted (s : String) : String :=
  let quote := quoteFor s.toList
  String.ofList (quote :: s.toList.flatMap (quotedChar quote) ++ [quote])

end ClientForge.Text
