/-
# ClientForge.Yaml.Token -- the tokens of a text

The text is cut into tokens from left to right.  Indentation becomes structure here: a
deeper column opens a block (`sequenceStart`, `mappingStart`), and a line that starts further
left closes blocks (`blockEnd`).  Only at a colon is it known that the scalar before it was
a key, so the place of every scalar that may turn out to be one is kept (`PendingKey`), and
the `key` token is put in front of it afterwards.  Such a key has to end on its own line.

The readers of the two quoted styles and of the plain style fold line ends: a single one
reads as a blank, and of several the first is dropped.  Tags, anchors, aliases, directives
and block scalars are refused.
-/
import ClientForge.Yaml.Cursor
import ClientForge.Failure

namespace ClientForge.Yaml

set_option autoImplicit false

/-- The text is not in the format. -/
def invalid {α : Type} : Attempt α := reject .invalidYaml

/-- What has to be there for the text to be in the format. -/
def needed {α : Type} : Option α → Attempt α
  | some a => .ok a
  | none => invalid

inductive Token where
  | documentStart
  | documentEnd
  | sequenceStart
  | mappingStart
  | blockEnd
  | flowSequenceStart
  | flowSequenceEnd
  | flowMappingStart
  | flowMappingEnd
  | entry
  | flowEntry
  | key
  | value
  | scalar (text : String) (plain : Bool)
  deriving DecidableEq, Inhabited

/-! ## Scalars -/

/-- The character that a backslash and a letter stand for. -/
def escapes : List (Char × Nat) := [
  ('0', 0x0), ('a', 0x7), ('b', 0x8), ('t', 0x9), ('\t', 0x9), ('n', 0xa), ('v', 0xb),
  ('f', 0xc), ('r', 0xd), ('e', 0x1b), (' ', 0x20), ('"', 0x22), ('\\', 0x5c), ('/', 0x2f),
  ('N', 0x85), ('_', 0xa0), ('L', 0x2028), ('P', 0x2029)]

/-- How many digits follow a backslash and a letter that introduce a code point. -/
def escapeWidth? (c : Char) : Option Nat :=
  if c = 'x' then some 2 else if c = 'u' then some 4 else if c = 'U' then some 8 else none

/-- The character of an escape with so many digits, and how many characters it takes up behind
its letter; the two halves of a pair stand for one character. -/
def escapedChar (width : Nat) (s : List Char) : Attempt (Char × Nat) :=
  match Text.readHex width 0 s with
  | none => invalid
  | some (code, rest) =>
    if 0x80000000 ≤ code then illShaped
    else if 0x110000 ≤ code then .error .noSuchCharacter
    else
      match Text.isHighUnit code, rest with
      | true, '\\' :: 'u' :: more =>
        match (Text.readHex 4 0 more).filter fun found => Text.isLowUnit found.1 with
        | some (low, _) => .ok (Text.charOfPair code low, width + 6)
        | none => .ok (Text.charOfUnit code, width)
      | _, _ => .ok (Text.charOfUnit code, width)

/-- A blank or a tab. -/
def isBlankOrTab (c : Char) : Bool := c == ' ' || c == '\t'

/-- The rest of a quoted scalar, the part before it in reverse. -/
def readQuoted (double : Bool) : Nat → Cursor → List Char → Attempt (List Char × Cursor)
  | 0, _, _ => invalid
  | fuel + 1, cur, done =>
    match cur.rest with
    | [] => invalid
    | c :: rest =>
      if c = '\'' ∧ double = false then
        match rest with
        | '\'' :: _ => readQuoted double fuel (cur.skip 2) ('\'' :: done)
        | _ => .ok (done.reverse, cur.next)
      else if c = '"' ∧ double then .ok (done.reverse, cur.next)
      else if c = '\\' ∧ double then
        match rest with
        | [] => invalid
        | e :: digits =>
          match escapes.lookup e, escapeWidth? e with
          | some code, _ => readQuoted double fuel (cur.skip 2) (Char.ofNat code :: done)
          | none, some width => do
            let (c, taken) ← escapedChar width digits
            readQuoted double fuel (cur.skip (2 + taken)) (c :: done)
          | none, none => do
            let (_, after) ← needed cur.next.lineBreak?
            let (breaks, after) ← needed (after.lineBreaks isBlankOrTab (fuel + 1) [])
            readQuoted double fuel after (breaks.reverse ++ done)
      else if isGap c then
        let blanks := cur.rest.takeWhile isBlankOrTab
        let after := cur.skip blanks.length
        match after.lineBreak? with
        | some (first, after) => do
          let (more, after) ← needed (after.lineBreaks isBlankOrTab (fuel + 1) [])
          readQuoted double fuel after ((Cursor.foldedBreak first more).reverse ++ done)
        | none => readQuoted double fuel after (blanks.reverse ++ done)
      else readQuoted double fuel cur.next (c :: done)

/-- A mark that is structure inside brackets. -/
def isFlowMark (c : Char) : Bool := c == ',' || c == '[' || c == ']' || c == '\x7b' || c == '\x7d'

/-- How many characters of one line belong to a plain scalar. -/
def plainLength (flow : Bool) : List Char → Nat
  | [] => 0
  | c :: rest =>
    if isGap c then 0
    else if c = ':' ∧ (gapFollows rest ∨ (flow ∧ rest.head?.any isFlowMark)) then 0
    else if flow ∧ (c = '?' ∨ isFlowMark c) then 0
    else plainLength flow rest + 1

/-- What stands between two parts of a plain scalar: its text, whether a line ended, and
whether the scalar may go on behind it. -/
def plainGap (fuel : Nat) (cur : Cursor) : List Char × Bool × Bool × Cursor :=
  let blanks := cur.rest.takeWhile (· == ' ')
  let after := cur.skip blanks.length
  match after.lineBreak? with
  | some (first, after) =>
    match after.lineBreaks (· == ' ') fuel [] with
    | some (more, after) => (Cursor.foldedBreak first more, true, true, after)
    | none => ([], true, false, after)
  | none => (blanks, false, !blanks.isEmpty, after)

/-- The rest of a plain scalar; the answer also says whether a line ended behind it.  Lines
that belong to it start at the given column or further right. -/
def readPlain (flow : Bool) (indent : Int) : Nat → Cursor → List Char →
    List Char → Bool → List Char × Bool × Cursor
  | 0, cur, done, _, ended => (done.reverse, ended, cur)
  | fuel + 1, cur, done, gap, ended =>
    let length := if cur.rest.head? == some '#' then 0 else plainLength flow cur.rest
    if length = 0 then (done.reverse, ended, cur)
    else
      let done := (cur.rest.take length).reverse ++ gap.reverse ++ done
      let (gap, ended, more, after) := plainGap (fuel + 1) (cur.skip length)
      if !more || after.rest.head? == some '#' || (!flow && (after.column : Int) < indent) then
        (done.reverse, ended, after)
      else readPlain flow indent fuel after done gap ended

/-! ## Structure -/

/-- A scalar or a bracket that may turn out to start a key: the token it is, its place, and
whether nothing else can stand there. -/
structure PendingKey where
  token : Nat
  required : Bool
  line : Nat
  column : Nat
  index : Nat

/-- A text that has been cut into tokens up to a place. -/
structure Scanner where
  cursor : Cursor
  flow : Nat := 0
  indent : Int := -1
  indents : List Int := []
  keyAllowed : Bool := true
  pending : List (Nat × PendingKey) := []
  tokens : Array Token := #[]

namespace Scanner

def push (sc : Scanner) (t : Token) : Scanner := { sc with tokens := sc.tokens.push t }

/-- Forget the possible key at the current depth; a key that had to be one is missing its
colon. -/
def dropPending (sc : Scanner) : Option Scanner :=
  match sc.pending.lookup sc.flow with
  | some key =>
    if key.required then none
    else some { sc with pending := sc.pending.filter fun entry => entry.1 != sc.flow }
  | none => some sc

/-- Remember that a key may start here. -/
def savePending (sc : Scanner) : Option Scanner :=
  let required := sc.flow == 0 && sc.indent == sc.cursor.column
  if sc.keyAllowed then
    (sc.dropPending).map fun sc =>
      { sc with
        pending := (sc.flow, ⟨sc.tokens.size, required, sc.cursor.line, sc.cursor.column,
          sc.cursor.index⟩) :: sc.pending }
  else some sc

/-- Forget the possible keys that did not end on their line, or are too long. -/
def dropStale (sc : Scanner) : Option Scanner :=
  let stale (key : PendingKey) : Bool :=
    key.line != sc.cursor.line || 1024 < sc.cursor.index - key.index
  if sc.pending.any fun entry => stale entry.2 && entry.2.required then none
  else some { sc with pending := sc.pending.filter fun entry => !stale entry.2 }

/-- Close the blocks that are indented further than a column. -/
def unwind (column : Int) : List Int → Scanner → Scanner
  | [], sc => sc
  | outer :: rest, sc =>
    if sc.flow = 0 ∧ column < sc.indent then
      unwind column rest { sc.push .blockEnd with indent := outer, indents := rest }
    else sc

/-- Open a block at a column, unless one is open there; the token goes to a place. -/
def openBlock (column : Nat) (place : Nat) (t : Token) (sc : Scanner) : Scanner :=
  if sc.indent < column then
    { sc with
      indent := column
      indents := sc.indent :: sc.indents
      tokens := sc.tokens.insertIdxIfInBounds place t }
  else sc

/-- Skip blanks, comments and line ends; behind a line end a key may start. -/
def skipGaps : Nat → Scanner → Scanner
  | 0, sc => sc
  | fuel + 1, sc =>
    let cur := sc.cursor.skipWhile (· == ' ')
    let cur := if cur.rest.head? == some '#' then cur.skipWhile (!isBreak ·) else cur
    match cur.lineBreak? with
    | some (_, cur) =>
      skipGaps fuel { sc with cursor := cur, keyAllowed := sc.keyAllowed || sc.flow == 0 }
    | none => { sc with cursor := cur }

def openFlow (t : Token) (sc : Scanner) : Option Scanner :=
  sc.savePending.map fun sc =>
    { sc.push t with flow := sc.flow + 1, keyAllowed := true, cursor := sc.cursor.next }

def closeFlow (t : Token) (sc : Scanner) : Option Scanner :=
  if sc.flow = 0 then none
  else
    sc.dropPending.map fun sc =>
      { sc.push t with flow := sc.flow - 1, keyAllowed := false, cursor := sc.cursor.next }

def flowEntry (sc : Scanner) : Option Scanner :=
  sc.dropPending.map fun sc =>
    { sc.push .flowEntry with keyAllowed := true, cursor := sc.cursor.next }

/-- A dash that starts an item of a block. -/
def blockEntry (sc : Scanner) : Option Scanner :=
  if sc.flow = 0 ∧ sc.keyAllowed = false then none
  else
    let sc :=
      if sc.flow = 0 then sc.openBlock sc.cursor.column sc.tokens.size .sequenceStart else sc
    sc.dropPending.map fun sc =>
      { sc.push .entry with keyAllowed := true, cursor := sc.cursor.next }

/-- A question mark that starts a key. -/
def explicitKey (sc : Scanner) : Option Scanner :=
  if sc.flow = 0 ∧ sc.keyAllowed = false then none
  else
    let sc :=
      if sc.flow = 0 then sc.openBlock sc.cursor.column sc.tokens.size .mappingStart else sc
    sc.dropPending.map fun sc =>
      { sc.push .key with keyAllowed := sc.flow == 0, cursor := sc.cursor.next }

/-- A colon that ends a key: the pending one, if there is one. -/
def valueMark (sc : Scanner) : Option Scanner :=
  match sc.pending.lookup sc.flow with
  | some key =>
    let sc :=
      { sc with
        pending := sc.pending.filter fun entry => entry.1 != sc.flow
        tokens := sc.tokens.insertIdxIfInBounds key.token .key
        keyAllowed := false }
    let sc := if sc.flow = 0 then sc.openBlock key.column key.token .mappingStart else sc
    some { sc.push .value with cursor := sc.cursor.next }
  | none =>
    if sc.flow = 0 ∧ sc.keyAllowed = false then none
    else
      let sc :=
        if sc.flow = 0 then sc.openBlock sc.cursor.column sc.tokens.size .mappingStart else sc
      let sc := { sc with keyAllowed := sc.flow == 0 }
      sc.dropPending.map fun sc => { sc.push .value with cursor := sc.cursor.next }

/-- A line that separates documents closes every block. -/
def separator (t : Token) (sc : Scanner) : Option Scanner :=
  ((sc.unwind (-1) sc.indents).dropPending).map fun sc =>
    { sc.push t with keyAllowed := false, cursor := sc.cursor.skip 3 }

def quotedScalar (double : Bool) (sc : Scanner) : Attempt Scanner := do
  let sc ← needed sc.savePending
  let (text, after) ← readQuoted double (sc.cursor.rest.length + 1) sc.cursor.next []
  return { sc.push (.scalar (String.ofList text) false) with keyAllowed := false, cursor := after }

def plainScalar (sc : Scanner) : Option Scanner := do
  let sc ← sc.savePending
  let (text, ended, after) :=
    readPlain (sc.flow != 0) (sc.indent + 1) (sc.cursor.rest.length + 1) sc.cursor [] [] false
  some { sc.push (.scalar (String.ofList text) true) with keyAllowed := ended, cursor := after }

/-- Marks with which no plain scalar starts. -/
def isIndicator (c : Char) : Bool :=
  isFlowMark c || c == '-' || c == '?' || c == ':' || c == '#' || c == '&' || c == '*' ||
    c == '!' || c == '|' || c == '>' || c == '\'' || c == '"' || c == '%' || c == '@' ||
    c == '\x60'

/-- A plain scalar starts with this character. -/
def startsPlain (flow : Bool) (c : Char) (rest : List Char) : Bool :=
  !(isGap c || isIndicator c) ||
    (!gapFollows rest && (c == '-' || (!flow && (c == '?' || c == ':'))))

/-- Cut the next token, whose first character is given and does not quote. -/
def token? (c : Char) (rest : List Char) (sc : Scanner) : Option Scanner :=
  let flow := sc.flow != 0
  if sc.cursor.column = 0 ∧ sc.cursor.separates '-' then sc.separator .documentStart
  else if sc.cursor.column = 0 ∧ sc.cursor.separates '.' then sc.separator .documentEnd
  else if c = '[' then sc.openFlow .flowSequenceStart
  else if c = '\x7b' then sc.openFlow .flowMappingStart
  else if c = ']' then sc.closeFlow .flowSequenceEnd
  else if c = '\x7d' then sc.closeFlow .flowMappingEnd
  else if c = ',' then sc.flowEntry
  else if c = '-' ∧ gapFollows rest then sc.blockEntry
  else if c = '?' ∧ (flow ∨ gapFollows rest) then sc.explicitKey
  else if c = ':' ∧ (flow ∨ gapFollows rest) then sc.valueMark
  else if startsPlain flow c rest then sc.plainScalar
  else none

/-- Cut the next token, whose first character is given. -/
def token (c : Char) (rest : List Char) (sc : Scanner) : Attempt Scanner :=
  if c = '\'' then sc.quotedScalar false
  else if c = '"' then sc.quotedScalar true
  else needed (sc.token? c rest)

/-- Cut the rest of the text. -/
def run : Nat → Scanner → Attempt (List Token)
  | 0, _ => invalid
  | fuel + 1, sc => do
    let sc ← needed (sc.skipGaps (sc.cursor.rest.length + 1)).dropStale
    match sc.cursor.rest with
    | [] =>
      let sc ← needed (sc.unwind (-1) sc.indents).dropPending
      return sc.tokens.toList
    | c :: rest =>
      let sc ← (sc.unwind sc.cursor.column sc.indents).token c rest
      run fuel sc

end Scanner

/-- The tokens of a text. -/
def tokens (text : List Char) : Attempt (List Token) :=
  if text.all isAllowed then
    let start : Cursor := { rest := text }
    let start := if text.head? == some byteOrderMark then start.next else start
    Scanner.run (text.length + 2) { cursor := start }
  else invalid

end ClientForge.Yaml
