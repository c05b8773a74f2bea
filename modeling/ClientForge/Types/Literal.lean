/-
# ClientForge.Types.Literal -- values as TypeScript literals

A string is written between apostrophes, in which only the apostrophe and the backslash are
escaped; every other value without string parts is written as JSON.  There are two forms of
a compound value: in a type it is JSON throughout (`typeText?`), in code its strings are
written between apostrophes and its keys like property names (`text?`).  A date has no
literal.
-/
import ClientForge.Data.Display
import ClientForge.Json.Printer
import ClientForge.Naming

namespace ClientForge.Literal

set_option autoImplicit false

/-- One character of a string. -/
def escapeChar (c : Char) : List Char := if c = '\'' ∨ c = '\\' then ['\\', c] else [c]

/-- A string between apostrophes. -/
def quote (s : String) : String :=
  String.ofList ('\'' :: s.toList.flatMap escapeChar ++ ['\''])

/-- A value as a literal type. -/
def typeText? : Value → Option String
  | .atom (.str s) => some (quote s)
  | v => Json.print? v

mutual

/-- A value as an expression. -/
def text? : Value → Option String
  | .atom (.str s) => some (quote s)
  | .atom a => Json.printScalar? a
  | .list items => do
    let items ← itemTexts? items
    some ("[" ++ String.intercalate ", " items ++ "]")
  | .map entries => do
    if entries.isEmpty then some "\x7b\x7d"
    else
      let entries ← entryTexts? entries
      some ("\x7b " ++ String.intercalate ", " entries ++ " \x7d")

def itemTexts? : List Value → Option (List String)
  | [] => some []
  | v :: rest => do
    let item ← text? v
    let items ← itemTexts? rest
    some (item :: items)

/-- The entries of a map, each with its key written like a property name. -/
def entryTexts? : List (Scalar × Value) → Option (List String)
  | [] => some []
  | (k, v) :: rest => do
    let item ← text? v
    let entries ← entryTexts? rest
    some ((Naming.propertyKey k.shown ++ ": " ++ item) :: entries)

end

end ClientForge.Literal
