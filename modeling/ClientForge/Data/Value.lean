/-
# ClientForge.Data.Value -- documents as ordered trees

A document is a tree of scalars, lists and maps.  A map keeps its entries in the order in
which they were written, and its keys are scalars of any kind: a key written as `200` is an
integer.  Two keys are the same when they are the same value, where numbers are compared as
numbers, times as instants, and the truth values count as one and zero (`Scalar.same`); a
string equals only itself, so `get?`, which looks for a string key, compares texts.

* `Entries.get?`, `Entries.has` and `Entries.put` are the three operations on the entries of
  a map: the first entry with a key, whether there is one, and the replacement of its value
  where the key stands, a new key going to the end;
* `Value.truthy` says which values count as given: not null, false, zero, or empty.
-/
import ClientForge.Data.Binary64
import ClientForge.Data.Moment

namespace ClientForge

set_option autoImplicit false

/-- A value without parts. -/
inductive Scalar where
  | null
  | bool (b : Bool)
  | int (i : Int)
  | float (x : Binary64)
  | str (s : String)
  | date (d : CalendarDate)
  | moment (m : Moment)
  deriving DecidableEq, Inhabited

/-- A document or a part of one. -/
inductive Value where
  | atom (a : Scalar)
  | list (items : List Value)
  | map (entries : List (Scalar × Value))
  deriving Inhabited

/-- The entries of a map, in written order. -/
abbrev Entries := List (Scalar × Value)

namespace Scalar

/-- The integer that a number without a fraction or a truth value stands for. -/
def toInt? : Scalar → Option Int
  | .bool b => some (if b then 1 else 0)
  | .int i => some i
  | _ => none

/-- Whether two scalars are the same key: numbers are compared as numbers, times as
instants. -/
def same (a b : Scalar) : Bool :=
  match a, b with
  | .float x, .float y => x.same y
  | .moment m, .moment n => m.same n
  | .float x, b => (b.toInt?.map x.equalsInt).getD false
  | a, .float y => (a.toInt?.map y.equalsInt).getD false
  | a, b =>
    match a.toInt?, b.toInt? with
    | some i, some j => i == j
    | none, none => a == b
    | _, _ => false

/-- Not null, false, zero or the empty string. -/
def truthy : Scalar → Bool
  | .null => false
  | .bool b => b
  | .int i => i != 0
  | .float x => !x.isZero
  | .str s => s != ""
  | .date _ => true
  | .moment _ => true

end Scalar

namespace Entries

/-- The value under a string key. -/
def get? (key : String) : Entries → Option Value
  | [] => none
  | (k, v) :: rest => if k = .str key then some v else get? key rest

/-- Whether a string key occurs. -/
def has (key : String) (entries : Entries) : Bool := (get? key entries).isSome

/-- Set the value under a key where the key stands, or at the end. -/
def put (key : Scalar) (value : Value) : Entries → Entries
  | [] => [(key, value)]
  | (k, v) :: rest => if k.same key then (k, value) :: rest else (k, v) :: put key value rest

/-- Put every entry of a list, in order. -/
def putAll (entries : Entries) (new : Entries) : Entries :=
  new.foldl (fun acc entry => put entry.1 entry.2 acc) entries

@[simp] theorem get?_nil (key : String) : get? key [] = none := rfl

theorem get?_cons_self (key : String) (v : Value) (rest : Entries) :
    get? key ((.str key, v) :: rest) = some v := by simp [get?]

theorem get?_cons_of_ne {key : String} {k : Scalar} (h : k ≠ .str key) (v : Value)
    (rest : Entries) : get? key ((k, v) :: rest) = get? key rest := by simp [get?, h]

end Entries

namespace Value

@[match_pattern] abbrev null : Value := .atom .null
@[match_pattern] abbrev bool (b : Bool) : Value := .atom (.bool b)
@[match_pattern] abbrev int (i : Int) : Value := .atom (.int i)
@[match_pattern] abbrev str (s : String) : Value := .atom (.str s)

/-- Not null, false, zero or empty: the value counts as given. -/
def truthy : Value → Bool
  | .atom a => a.truthy
  | .list items => !items.isEmpty
  | .map entries => !entries.isEmpty

def isNull : Value → Bool
  | .atom .null => true
  | _ => false

/-- Null stands for a missing value. -/
def present? (v : Value) : Option Value := if v.isNull then none else some v

/-- The parts that a walk over the value meets: items, keys, or single characters. -/
def elements? : Value → Option (List Value)
  | .list items => some items
  | .map entries => some (entries.map fun entry => .atom entry.1)
  | .atom (.str s) => some (s.toList.map fun c => .str (String.ofList [c]))
  | .atom _ => none

/-- A value that can be a key or a member of a set. -/
def scalar? : Value → Option Scalar
  | .atom a => some a
  | _ => none

/-- A map from string keys. -/
def object (fields : List (String × Value)) : Value :=
  .map (fields.map fun field => (.str field.1, field.2))

end Value

/-- The value under a string key counts as given. -/
def Entries.given (key : String) (entries : Entries) : Bool :=
  ((entries.get? key).map Value.truthy).getD false

end ClientForge
