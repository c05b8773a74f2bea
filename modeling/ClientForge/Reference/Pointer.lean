/-
# ClientForge.Reference.Pointer -- a part of a document by its path

A fragment names a part of a document by the keys that lead to it, each behind a slash.  In
a key a slash is written `~1` and a tilde `~0`; they are read back in that order, so `~01`
is a tilde and a one.  Only maps have parts, and only string keys are found: a step into a
list leads nowhere.
-/
import ClientForge.Data.Value
import ClientForge.Text.Pieces
import ClientForge.Failure

namespace ClientForge.Pointer

set_option autoImplicit false

/-- The key that a step writes. -/
def unescape (step : List Char) : List Char :=
  Text.replacePair '~' '0' '~' (Text.replacePair '~' '1' '/' step)

/-- The keys of a fragment. -/
def keys (fragment : List Char) : List String :=
  let steps :=
    match fragment with
    | '/' :: rest => rest
    | _ => fragment
  (Text.splitOn '/' steps).map fun step => String.ofList (unescape step)

/-- Follow keys from map to map. -/
def follow : Value → List String → Option Value
  | v, [] => some v
  | .map entries, key :: rest =>
    match Entries.get? key entries with
    | some v => follow v rest
    | none => none
  | .atom _, _ :: _ => none
  | .list _, _ :: _ => none

/-- The part of a document that a fragment names; the empty fragment names all of it. -/
def find (document : Value) (fragment : String) : Attempt Value :=
  if fragment = "" ∨ fragment = "#" then .ok document
  else
    match follow document (keys fragment.toList) with
    | some v => .ok v
    | none => reject (.danglingPointer fragment)

end ClientForge.Pointer
