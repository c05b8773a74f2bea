/-
# ClientForge.Yaml.Reader -- documents from YAML text

A text is cut into tokens, the tokens are read as one node, and the node becomes a value:
quoted scalars are strings, plain scalars what `plainScalar` says.  Keys have to be scalars;
a repeated key keeps its first place and takes the last value.

Of several scalars and keys that stand for nothing the one closest to the root is reported,
the first of its level (`Node.firstFailure?`).
-/
import ClientForge.Yaml.Node
import ClientForge.Yaml.Plain

namespace ClientForge.Yaml

set_option autoImplicit false

/-- A key has no parts. -/
def keyOf : Node → Attempt Scalar
  | .scalar text plain => if plain ∧ text ≠ "=" then plainScalar text else .ok (.str text)
  | .sequence _ => invalid
  | .mapping _ => invalid

mutual

/-- The value that a node writes. -/
def valueOf : Node → Attempt Value
  | .scalar text plain =>
    if plain then
      if text = "=" then invalid else (plainScalar text).map .atom
    else .ok (.str text)
  | .sequence items => (valuesOf items).map .list
  | .mapping pairs => (entriesOf [] pairs).map .map

def valuesOf : List Node → Attempt (List Value)
  | [] => .ok []
  | node :: rest => do
    let value ← valueOf node
    let values ← valuesOf rest
    return value :: values

/-- The entries of a mapping, those before in order. -/
def entriesOf (done : Entries) : List (Node × Node) → Attempt Entries
  | [] => .ok done
  | (key, node) :: rest => do
    let key ← keyOf key
    let value ← valueOf node
    entriesOf (Entries.put key value done) rest

end

namespace Node

/-- What is wrong with a node by itself; a sequence or a mapping is wrong only in its parts. -/
def ownFailure? : Node → Option Failure
  | .scalar text plain =>
    match valueOf (.scalar text plain) with
    | .ok _ => none
    | .error failure => some failure
  | .sequence _ => none
  | .mapping _ => none

/-- What is wrong with a node as a key. -/
def keyFailure? (key : Node) : Option Failure :=
  match keyOf key with
  | .ok _ => none
  | .error failure => some failure

/-- Join two lists of levels: of two failures on one level the left one counts. -/
def joinLevels : List (Option Failure) → List (Option Failure) → List (Option Failure)
  | [], levels => levels
  | levels, [] => levels
  | a :: as, b :: bs => a.or b :: joinLevels as bs

mutual

/-- The first failure on each level below a node. -/
def levels : Node → List (Option Failure)
  | .scalar _ _ => []
  | .sequence items => itemLevels items
  | .mapping pairs => pairLevels pairs

def itemLevels : List Node → List (Option Failure)
  | [] => []
  | item :: rest => joinLevels (ownFailure? item :: levels item) (itemLevels rest)

def pairLevels : List (Node × Node) → List (Option Failure)
  | [] => []
  | (key, value) :: rest =>
    joinLevels ((keyFailure? key).or (ownFailure? value) :: levels value) (pairLevels rest)

end

/-- The failure closest to the root. -/
def firstFailure? (node : Node) : Option Failure :=
  (ownFailure? node :: levels node).findSome? id

end Node

/-- The document that a whole text writes. -/
def read (text : String) : Attempt Value := do
  let node ← needed (Node.ofDocument? (← tokens text.toList))
  match node.firstFailure? with
  | some failure => .error failure
  | none => valueOf node

end ClientForge.Yaml
