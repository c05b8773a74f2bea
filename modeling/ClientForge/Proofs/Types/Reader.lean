/-
# ClientForge.Proofs.Types.Reader -- reading type expressions

The text of a type is read in two steps.  `tokens?` cuts it into words and signs; a literal
string counts as a word, whatever it holds.  `read?` then takes the tokens one by one: what
stands between brackets becomes one piece of what stands around it, so no step has to look
further than one pair of brackets.

Between its brackets a type is cut at the signs of unions first, then at those of
intersections, and what is left is a type with brackets of arrays behind it: so the brackets
bind tighter than an intersection, and that tighter than a union.  Parentheses leave no trace.
-/
import ClientForge.Proofs.Naming.Characters
import ClientForge.Proofs.Types.Tree

namespace ClientForge

set_option autoImplicit false

/-- The sign of a connective. -/
def Connective.sign : Connective → Char
  | .union => '|'
  | .intersection => '&'

namespace TypeText

/-! ## Tokens -/

/-- A word, with its quotes if it is a string, or a sign. -/
inductive Token where
  | word (text : List Char)
  | sign (c : Char)

/-- Where the reader of a text stands; what has been read of a word is in reverse. -/
inductive Scanning where
  | between
  | word (read : List Char)
  | quoted (quote : Char) (read : List Char)
  | escaped (quote : Char) (read : List Char)

def isOpening (c : Char) : Bool := c == '(' || c == '[' || c == '\x7b'

def isClosing (c : Char) : Bool := c == ')' || c == ']' || c == '\x7d'

/-- The signs of type expressions, brackets included. -/
def isSign (c : Char) : Bool :=
  isOpening c || isClosing c || c == '|' || c == '&' || c == ';' || c == ',' || c == ':' || c == '?'

def isQuote (c : Char) : Bool := c == '\'' || c == '"'

/-- The characters of names and numbers. -/
def isWordChar (c : Char) : Bool :=
  Text.isNameCode c.toNat || c == '$' || c == '.' || c == '+' || c == '-'

/-- The tokens of a text; none if a string is left open, or if a character has no place. -/
def tokens? : Scanning → List Char → Option (List Token)
  | .between, [] => some []
  | .between, c :: rest =>
    if c = ' ' then tokens? .between rest
    else if isSign c then (tokens? .between rest).map (.sign c :: ·)
    else if isQuote c then tokens? (.quoted c [c]) rest
    else if isWordChar c then tokens? (.word [c]) rest
    else none
  | .word read, [] => some [.word read.reverse]
  | .word read, c :: rest =>
    if c = ' ' then (tokens? .between rest).map (.word read.reverse :: ·)
    else if isSign c then
      (tokens? .between rest).map fun tokens => .word read.reverse :: .sign c :: tokens
    else if isWordChar c then tokens? (.word (c :: read)) rest
    else none
  | .quoted _ _, [] => none
  | .quoted quote read, c :: rest =>
    if c = quote then (tokens? .between rest).map (.word (c :: read).reverse :: ·)
    else if c = '\\' then tokens? (.escaped quote (c :: read)) rest
    else if c = '\n' ∨ c = '\r' then none
    else tokens? (.quoted quote (c :: read)) rest
  | .escaped _ _, [] => none
  | .escaped quote read, c :: rest => tokens? (.quoted quote (c :: read)) rest

/-! ## Pieces -/

/-- What stands next to each other between two brackets. -/
inductive Piece where
  | tree (t : TypeTree)
  /-- A pair of square brackets with nothing in it. -/
  | brackets
  /-- The key of all other members of an object type. -/
  | index (name type : String)
  | sign (c : Char)

def Piece.isSign (c : Char) : Piece → Bool
  | .sign d => d == c
  | _ => false

/-- Brackets of arrays behind a type. -/
def suffixes? (t : TypeTree) : List Piece → Option TypeTree
  | [] => some t
  | .brackets :: rest => suffixes? (.array t) rest
  | _ => none

/-- A type without unions and intersections; brackets with nothing in front are a tuple. -/
def operand? : List Piece → Option TypeTree
  | .tree t :: rest => suffixes? t rest
  | .brackets :: rest => suffixes? (.tuple []) rest
  | _ => none

/-- The members of an intersection. -/
def factors? (pieces : List Piece) : Option (List TypeTree) :=
  (pieces.splitOnP (Piece.isSign '&')).mapM operand?

/-- An alternative of a union. -/
def alternative? (pieces : List Piece) : Option TypeTree :=
  (factors? pieces).map (TypeTree.ofMembers .intersection)

/-- The members that a connective joins. -/
def members? : Connective → List Piece → Option (List TypeTree)
  | .intersection, pieces => factors? pieces
  | .union, pieces => (pieces.splitOnP (Piece.isSign '|')).mapM alternative?

/-- A whole type. -/
def type? (pieces : List Piece) : Option TypeTree :=
  (members? .union pieces).map (TypeTree.ofMembers .union)

/-- A member of an object type. -/
def member? : List Piece → Option (TreeKey × TypeTree)
  | .tree (.leaf key) :: .sign ':' :: rest => (type? rest).map (.property key false, ·)
  | .tree (.leaf key) :: .sign '?' :: .sign ':' :: rest =>
    (type? rest).map (.property key true, ·)
  | .index name type :: .sign ':' :: rest => (type? rest).map (.index name type, ·)
  | _ => none

/-- What stands between square brackets. -/
def squared? : List Piece → Option Piece
  | [] => some .brackets
  | [.tree (.leaf name), .sign ':', .tree (.leaf type)] => some (.index name type)
  | pieces => ((pieces.splitOnP (Piece.isSign ',')).mapM type?).map fun ts => .tree (.tuple ts)

/-- What stands between braces; members end at a comma or a semicolon. -/
def braced? : List Piece → Option Piece
  | [] => some (.tree (.object []))
  | pieces =>
    ((pieces.splitOnP fun p => p.isSign ',' || p.isSign ';').mapM member?).map fun ms =>
      .tree (.object ms)

/-- What stands between two brackets, as one piece. -/
def enclosed? (opening closing : Char) (pieces : List Piece) : Option Piece :=
  if opening = '(' ∧ closing = ')' then (type? pieces).map .tree
  else if opening = '[' ∧ closing = ']' then squared? pieces
  else if opening = '\x7b' ∧ closing = '\x7d' then braced? pieces
  else none

/-! ## Whole texts -/

/-- The brackets that are open, each with the pieces in front of it, and the pieces since. -/
structure Stand where
  frames : List (Char × List Piece)
  pieces : List Piece

/-- One token more. -/
def take? (s : Stand) : Token → Option Stand
  | .word text => some ⟨s.frames, s.pieces ++ [.tree (.leaf (String.ofList text))]⟩
  | .sign c =>
    if isOpening c then some ⟨(c, s.pieces) :: s.frames, []⟩
    else if isClosing c then
      match s.frames with
      | [] => none
      | (opening, before) :: frames =>
        (enclosed? opening c s.pieces).map fun piece => ⟨frames, before ++ [piece]⟩
    else some ⟨s.frames, s.pieces ++ [.sign c]⟩

/-- The type that a text describes; none if it is not the text of a type. -/
def read? (text : String) : Option TypeTree := do
  let tokens ← tokens? .between text.toList
  let last ← tokens.foldlM take? ⟨[], []⟩
  if last.frames.isEmpty then type? last.pieces else none

end TypeText

end ClientForge
