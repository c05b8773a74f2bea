/-
# ClientForge.Yaml.Cursor -- a place in a text of lines

A cursor is what is left of a text, together with the line and the column that it starts at.
Indentation is structure in this format, so every move of the cursor keeps the column right.
-/

namespace ClientForge.Yaml

set_option autoImplicit false

/-- The rest of a text and its place. -/
structure Cursor where
  rest : List Char
  line : Nat := 0
  column : Nat := 0
  index : Nat := 0

/-- A character that ends a line. -/
def isBreak (c : Char) : Bool :=
  c == '\n' || c == '\r' || c.toNat == 0x85 || c.toNat == 0x2028 || c.toNat == 0x2029

/-- A blank, a tab or the end of a line. -/
def isGap (c : Char) : Bool := c == ' ' || c == '\t' || isBreak c

/-- The text ends here, or a gap follows. -/
def gapFollows : List Char → Bool
  | [] => true
  | c :: _ => isGap c

/-- A character that a text in this format may hold. -/
def isAllowed (c : Char) : Bool :=
  let n := c.toNat
  n == 0x9 || n == 0xa || n == 0xd || (0x20 ≤ n && n ≤ 0x7e) || n == 0x85 ||
    (0xa0 ≤ n && n ≤ 0xd7ff) || (0xe000 ≤ n && n ≤ 0xfffd) || 0x10000 ≤ n

/-- The mark that may stand at the start of a text; it takes up no column. -/
def byteOrderMark : Char := Char.ofNat 0xfeff

namespace Cursor

/-- One character further. -/
def next (cur : Cursor) : Cursor :=
  match cur.rest with
  | [] => cur
  | c :: rest =>
    if isBreak c && !(c == '\r' && rest.head? == some '\n') then
      ⟨rest, cur.line + 1, 0, cur.index + 1⟩
    else if c = byteOrderMark then ⟨rest, cur.line, cur.column, cur.index + 1⟩
    else ⟨rest, cur.line, cur.column + 1, cur.index + 1⟩

/-- So many characters further. -/
def skip : Nat → Cursor → Cursor
  | 0, cur => cur
  | n + 1, cur => skip n cur.next

/-- Behind all characters of a class that follow. -/
def skipWhile (p : Char → Bool) (cur : Cursor) : Cursor :=
  cur.skip (cur.rest.takeWhile p).length

/-- The end of a line, if one follows: the character it stands for, and the next line. -/
def lineBreak? (cur : Cursor) : Option (Char × Cursor) :=
  match cur.rest with
  | '\r' :: '\n' :: _ => some ('\n', cur.skip 2)
  | c :: _ =>
    if isBreak c then
      some (if c.toNat = 0x2028 ∨ c.toNat = 0x2029 then c else '\n', cur.next)
    else none
  | [] => none

/-- A line that separates documents starts here: three times the mark, then a gap. -/
def separates (mark : Char) (cur : Cursor) : Bool :=
  cur.rest.take 3 == [mark, mark, mark] && gapFollows (cur.rest.drop 3)

/-- Either kind of line that separates documents starts here. -/
def atSeparator (cur : Cursor) : Bool := cur.separates '-' || cur.separates '.'

/-- Characters and line ends that follow, the blanks of a class between them left out. -/
def lineBreaks (blank : Char → Bool) : Nat → Cursor → List Char → Option (List Char × Cursor)
  | 0, cur, done => some (done.reverse, cur)
  | fuel + 1, cur, done =>
    if cur.atSeparator then none
    else
      let cur := cur.skipWhile blank
      match cur.lineBreak? with
      | some (c, cur) => lineBreaks blank fuel cur (c :: done)
      | none => some (done.reverse, cur)

/-- How one or more line ends inside a scalar read: a single one is a blank, and of several
the first is dropped. -/
def foldedBreak (first : Char) (more : List Char) : List Char :=
  if first ≠ '\n' then first :: more else if more.isEmpty then [' '] else more

end Cursor

end ClientForge.Yaml
