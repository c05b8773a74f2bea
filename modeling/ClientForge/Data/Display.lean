/-
# ClientForge.Data.Display -- the text of a value inside a message

A message shows a string as it is, and any other value in a plain written form; inside a list
or a map strings are quoted, and dates and times are shown part by part.
-/
import ClientForge.Data.Value
import ClientForge.Text.Quoted

namespace ClientForge

set_option autoImplicit false

namespace Scalar

/-- A scalar that stands alone in a message, or names a key. -/
def shown : Scalar → String
  | .null => "None"
  | .bool b => if b then "True" else "False"
  | .int i => toString i
  | .float x =>
    if x.isNotANumber then "nan"
    else if x.isInfinite then (if x.negative then "-inf" else "inf")
    else x.text
  | .str s => s
  | .date d => d.text
  | .moment m => m.textWith " "

/-- A scalar inside a list or a map. -/
def shownInside : Scalar → String
  | .str s => Text.quoted s
  | .date d => d.partsText
  | .moment m => m.partsText
  | a => a.shown

end Scalar

namespace Value

mutual

/-- A value inside a list or a map. -/
def shownInside : Value → String
  | .atom a => a.shownInside
  | .list items => "[" ++ String.intercalate ", " (shownItems items) ++ "]"
  | .map entries => "\x7b" ++ String.intercalate ", " (shownEntries entries) ++ "\x7d"

def shownItems : List Value → List String
  | [] => []
  | v :: rest => shownInside v :: shownItems rest

def shownEntries : List (Scalar × Value) → List String
  | [] => []
  | (k, v) :: rest => (k.shownInside ++ ": " ++ shownInside v) :: shownEntries rest

end

/-- A value that stands alone in a message. -/
def shown : Value → String
  | .atom a => a.shown
  | v => v.shownInside

end Value

end ClientForge
