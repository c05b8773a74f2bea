/-
# ClientForge.Text.WholeWord -- finding a name in a text

A name occurs as a whole word where neither end of it lies inside a longer word.
-/
import ClientForge.Text.Alphanumeric

namespace ClientForge.Text

set_option autoImplicit false

/-- Exactly one side is a word character; outside the text there is none. -/
def isBoundary (before after : Option Char) : Bool :=
  before.any isWordChar != after.any isWordChar

/-- The name stands at the start of a text, as a whole word. -/
def startsWithWord (name : List Char) (before : Option Char) (s : List Char) : Bool :=
  name.isPrefixOf s && isBoundary before s.head? &&
    isBoundary (name.getLast?.or before) (s.drop name.length).head?

/-- The name stands somewhere in a text, as a whole word. -/
def hasWordFrom (name : List Char) : Option Char → List Char → Bool
  | before, [] => startsWithWord name before []
  | before, c :: rest => startsWithWord name before (c :: rest) || hasWordFrom name (some c) rest

def hasWord (name text : String) : Bool := hasWordFrom name.toList none text.toList

end ClientForge.Text
