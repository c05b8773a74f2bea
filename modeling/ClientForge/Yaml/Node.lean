/-
# ClientForge.Yaml.Node -- the tree of a list of tokens

A document is one node: a scalar, a sequence or a mapping, each either in block form or
between brackets.  A missing node reads as an empty plain scalar.  The items of a sequence
under a key may stand at the key's own column; such a sequence has no token of its own that
opens or closes it.  Every function takes the tokens from its place on and gives the rest
back; it uses up a token or hands over to one that does, so the number of tokens bounds the
recursion.
-/
import ClientForge.Yaml.Token

namespace ClientForge.Yaml

set_option autoImplicit false

inductive Node where
  | scalar (text : String) (plain : Bool)
  | sequence (items : List Node)
  | mapping (pairs : List (Node × Node))
  deriving Inhabited

/-- What stands where a node is missing. -/
def Node.empty : Node := .scalar "" true

namespace Node

/-- The next token is one of those that end an item or a value of a block. -/
def endsBlockPart (withValue : Bool) : List Token → Bool
  | .key :: _ => true
  | .value :: _ => withValue
  | .blockEnd :: _ => true
  | _ => false

mutual

/-- The node at the start of the tokens; `block` allows block form, `bare` also a sequence
that nothing opens. -/
def ofTokens (block bare : Bool) : Nat → List Token → Option (Node × List Token)
  | 0, _ => none
  | fuel + 1, ts =>
    match ts with
    | .scalar text plain :: rest => some (.scalar text plain, rest)
    | .flowSequenceStart :: rest => flowItems fuel true [] rest
    | .flowMappingStart :: rest => flowPairs fuel true [] rest
    | .sequenceStart :: rest => if block then blockItems fuel [] rest else none
    | .mappingStart :: rest => if block then blockPairs fuel [] rest else none
    | .entry :: _ => if bare then bareItems fuel [] ts else none
    | _ => none

/-- The items of a block sequence. -/
def blockItems : Nat → List Node → List Token → Option (Node × List Token)
  | 0, _, _ => none
  | fuel + 1, done, ts =>
    match ts with
    | .blockEnd :: rest => some (.sequence done.reverse, rest)
    | .entry :: rest =>
      match rest with
      | .entry :: _ => blockItems fuel (.empty :: done) rest
      | .blockEnd :: _ => blockItems fuel (.empty :: done) rest
      | _ => do
        let (item, rest) ← ofTokens true false fuel rest
        blockItems fuel (item :: done) rest
    | _ => none

/-- The items of a sequence that stands at the column of its key. -/
def bareItems : Nat → List Node → List Token → Option (Node × List Token)
  | 0, _, _ => none
  | fuel + 1, done, ts =>
    match ts with
    | .entry :: rest =>
      match rest with
      | .entry :: _ => bareItems fuel (.empty :: done) rest
      | _ =>
        if endsBlockPart true rest then bareItems fuel (.empty :: done) rest
        else do
          let (item, rest) ← ofTokens true false fuel rest
          bareItems fuel (item :: done) rest
    | _ => some (.sequence done.reverse, ts)

/-- A key or a value of a block mapping. -/
def blockPart : Nat → List Token → Option (Node × List Token)
  | 0, _ => none
  | fuel + 1, ts => if endsBlockPart true ts then some (.empty, ts) else ofTokens true true fuel ts

/-- The pairs of a block mapping. -/
def blockPairs : Nat → List (Node × Node) → List Token → Option (Node × List Token)
  | 0, _, _ => none
  | fuel + 1, done, ts =>
    match ts with
    | .blockEnd :: rest => some (.mapping done.reverse, rest)
    | .key :: rest => do
      let (key, rest) ← blockPart fuel rest
      match rest with
      | .value :: rest => do
        let (value, rest) ← blockPart fuel rest
        blockPairs fuel ((key, value) :: done) rest
      | _ => blockPairs fuel ((key, .empty) :: done) rest
    | _ => none

/-- A node between brackets, missing if the bracket closes or an entry ends. -/
def flowPart (close : Token) (beforeValue : Bool) :
    Nat → List Token → Option (Node × List Token)
  | 0, _ => none
  | fuel + 1, ts =>
    match ts with
    | [] => none
    | t :: _ =>
      if t = close ∨ t = .flowEntry ∨ (beforeValue ∧ t = .value) then some (.empty, ts)
      else ofTokens false false fuel ts

/-- A key between brackets and its value, if it has one. -/
def flowPair (close : Token) : Nat → List Token → Option ((Node × Node) × List Token)
  | 0, _ => none
  | fuel + 1, ts => do
    let (key, rest) ← flowPart close true fuel ts
    match rest with
    | .value :: rest => do
      let (value, rest) ← flowPart close false fuel rest
      some ((key, value), rest)
    | _ => some ((key, .empty), rest)

/-- The items of a sequence between brackets. -/
def flowItems : Nat → Bool → List Node → List Token → Option (Node × List Token)
  | 0, _, _, _ => none
  | fuel + 1, first, done, ts =>
    match ts with
    | .flowSequenceEnd :: rest => some (.sequence done.reverse, rest)
    | _ => do
      let rest ← afterEntry first ts
      match rest with
      | .flowSequenceEnd :: rest => some (.sequence done.reverse, rest)
      | .key :: rest => do
        let (pair, rest) ← flowPair .flowSequenceEnd fuel rest
        flowItems fuel false (.mapping [pair] :: done) rest
      | _ => do
        let (item, rest) ← ofTokens false false fuel rest
        flowItems fuel false (item :: done) rest

/-- The pairs of a mapping between brackets. -/
def flowPairs : Nat → Bool → List (Node × Node) → List Token → Option (Node × List Token)
  | 0, _, _, _ => none
  | fuel + 1, first, done, ts =>
    match ts with
    | .flowMappingEnd :: rest => some (.mapping done.reverse, rest)
    | _ => do
      let rest ← afterEntry first ts
      match rest with
      | .flowMappingEnd :: rest => some (.mapping done.reverse, rest)
      | .key :: rest => do
        let (pair, rest) ← flowPair .flowMappingEnd fuel rest
        flowPairs fuel false (pair :: done) rest
      | _ => do
        let (key, rest) ← ofTokens false false fuel rest
        flowPairs fuel false ((key, .empty) :: done) rest

/-- Between two items there is a comma; before the first one there is none. -/
def afterEntry (first : Bool) (ts : List Token) : Option (List Token) :=
  if first then some ts
  else
    match ts with
    | .flowEntry :: rest => some rest
    | _ => none

end

/-- The one document of the tokens; no token at all is an empty document. -/
def ofDocument? (ts : List Token) : Option Node :=
  match ts with
  | [] => some .empty
  | .documentStart :: rest =>
    match rest with
    | [] => some .empty
    | .documentEnd :: rest => finish .empty rest
    | .documentStart :: _ => none
    | _ => read rest
  | _ => read ts
where
  /-- Behind the document nothing but end marks may stand. -/
  finish (node : Node) (rest : List Token) : Option Node :=
    if rest.all (· == .documentEnd) then some node else none
  read (ts : List Token) : Option Node := do
    let (node, rest) ← ofTokens true false (4 * ts.length + 4) ts
    finish node rest

end Node

end ClientForge.Yaml
