/-
# ClientForge.Contract.Surface -- the parameter list of a generated function

A surface is a list of slots in the order of the signature.  Every function that is
generated for an operation takes its parameters from the same surface, or from a part of it
(`only`, `without`).

An optional slot is written with a question mark where no required one follows, and as a
type that may be undefined otherwise, because a parameter with a question mark may not stand
in front of one without.
-/

namespace ClientForge

set_option autoImplicit false

/-- What a parameter of a generated function carries. -/
inductive Role where
  | path
  | query
  | header
  | body
  | options
  deriving DecidableEq

namespace Role

def all : List Role := [.path, .query, .header, .body, .options]

def name : Role → String
  | .path => "path"
  | .query => "query"
  | .header => "header"
  | .body => "body"
  | .options => "options"

def ofName? (name : String) : Option Role := all.find? fun r => r.name = name

end Role

/-- A parameter of a generated function; `wrapper` is a generic type around its type. -/
structure Slot where
  role : Role
  name : String
  type : String
  optional : Bool
  wrapper : Option String := none
  deriving DecidableEq

namespace Slot

/-- The type as the signature writes it. -/
def renderedType (s : Slot) : String :=
  match s.wrapper with
  | some wrapper => if wrapper = "" then s.type else wrapper ++ "<" ++ s.type ++ ">"
  | none => s.type

/-- The declaration of a slot in front of others. -/
def render (s : Slot) (later : List Slot) : String :=
  if !s.optional then s.name ++ ": " ++ s.renderedType
  else if later.any fun s => !s.optional then
    s.name ++ ": " ++ s.renderedType ++ " | undefined"
  else s.name ++ "?: " ++ s.renderedType

end Slot

/-- The parameters of a generated function, in order. -/
structure Surface where
  slots : List Slot
  deriving DecidableEq

namespace Surface

def size (s : Surface) : Nat := s.slots.length

/-- The slots with one of the roles. -/
def only (roles : List Role) (s : Surface) : Surface :=
  ⟨s.slots.filter fun slot => roles.contains slot.role⟩

/-- The slots with none of the roles. -/
def without (roles : List Role) (s : Surface) : Surface :=
  ⟨s.slots.filter fun slot => !roles.contains slot.role⟩

/-- The first slot with a role. -/
def first? (role : Role) (s : Surface) : Option Slot := s.slots.find? fun slot => slot.role = role

def names (s : Surface) : List String := s.slots.map Slot.name

/-- The declarations of slots, each in front of the later ones. -/
def partsOf : List Slot → List String
  | [] => []
  | slot :: later => slot.render later :: partsOf later

def parts (s : Surface) : List String := partsOf s.slots

def render (s : Surface) : String := String.intercalate ", " s.parts

theorem length_parts (s : Surface) : s.parts.length = s.size := by
  have (slots : List Slot) : (partsOf slots).length = slots.length := by
    induction slots with
    | nil => rfl
    | cons _ _ ih => simp [partsOf, ih]
  exact this s.slots

end Surface

end ClientForge
