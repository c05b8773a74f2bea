/-
# ClientForge.Text.Ranges -- classes of characters as lists of ranges

A class of characters is a list of closed ranges of code points in ascending order, so a
search stops at the first range that starts beyond the code point.
-/

namespace ClientForge.Text

set_option autoImplicit false

/-- Whether a code point lies in one of the ranges, which ascend. -/
def inRanges : List (Nat × Nat) → Nat → Bool
  | [], _ => false
  | (lo, hi) :: rest, n => if n < lo then false else n ≤ hi || inRanges rest n

/-- The distance of a code point from the start of the range that holds it. -/
def rangeOffset? : List (Nat × Nat) → Nat → Option Nat
  | [], _ => none
  | (lo, hi) :: rest, n =>
    if n < lo then none else if n ≤ hi then some (n - lo) else rangeOffset? rest n

/-- Blank characters: those that separate words. -/
def blankRanges : List (Nat × Nat) := [
    (0x9, 0xd), (0x1c, 0x20), (0x85, 0x85), (0xa0, 0xa0), (0x1680, 0x1680), (0x2000, 0x200a),
    (0x2028, 0x2029), (0x202f, 0x202f), (0x205f, 0x205f), (0x3000, 0x3000)]

/-- A blank character of any script. -/
def isBlank (c : Char) : Bool := inRanges blankRanges c.toNat

end ClientForge.Text
