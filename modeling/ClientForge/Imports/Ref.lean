/-
# ClientForge.Imports.Ref -- symbols that generated code refers to

Two references to the same symbol of the same module are equal, so a collection of them
without repeats (`ImportSet`) never leads to a repeated import.  The models module has no
specifier of its own.
-/

namespace ClientForge

set_option autoImplicit false

/-- A symbol of a module; without a specifier it is one of the models. -/
structure ImportRef where
  name : String
  specifier : Option String := none
  isDefault : Bool := false
  isValue : Bool := false
  deriving DecidableEq, Inhabited

namespace ImportRef

/-- A type of the models module. -/
def model (name : String) : ImportRef := { name }

end ImportRef

/-- References without repeats, in the order in which they were added. -/
structure ImportSet where
  refs : List ImportRef := []
  deriving DecidableEq, Inhabited

namespace ImportSet

def contains (set : ImportSet) (ref : ImportRef) : Bool := set.refs.contains ref

def size (set : ImportSet) : Nat := set.refs.length

/-- Add a reference at the end, unless it is there. -/
def insert (set : ImportSet) (ref : ImportRef) : ImportSet :=
  if set.contains ref then set else ⟨set.refs ++ [ref]⟩

/-- Add references in order. -/
def insertAll (set : ImportSet) (refs : List ImportRef) : ImportSet :=
  refs.foldl insert set

@[simp] theorem mem_insert (set : ImportSet) (ref other : ImportRef) :
    other ∈ (set.insert ref).refs ↔ other = ref ∨ other ∈ set.refs := by
  by_cases h : ref ∈ set.refs
  · have : set.insert ref = set := by simp [insert, contains, h]
    rw [this]
    constructor
    · exact Or.inr
    · rintro (rfl | h') <;> assumption
  · simp [insert, contains, h, or_comm]

end ImportSet

/-- References without repeats, each at its first place. -/
def distinctRefs (refs : List ImportRef) : List ImportRef :=
  (ImportSet.insertAll {} refs).refs

/-- References in the order of their names. -/
def sortedByName (refs : List ImportRef) : List ImportRef :=
  refs.mergeSort fun a b => decide (a.name ≤ b.name)

end ClientForge
