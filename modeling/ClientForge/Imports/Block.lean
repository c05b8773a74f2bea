/-
# ClientForge.Imports.Block -- import statements

References are grouped by module, the modules in the order in which they are first needed.
A module gives one or two statements: its default, and its other symbols in the order of
their names.  The default is the first one among the references; it is imported as a whole
module where it is one in disguise and the project does not allow that.  The other symbols
stand behind the default where they can, and otherwise in a statement of their own, which
imports types only if none of them is used as a value.
-/
import ClientForge.Imports.Dependency
import ClientForge.Profile

namespace ClientForge

set_option autoImplicit false

/-- The module that holds the models. -/
def modelsSpecifier : String := "./model"

/-- The references to one module. -/
structure ImportGroup where
  specifier : String
  refs : List ImportRef
  deriving DecidableEq

namespace ImportGroup

/-- The module that a reference is imported from. -/
def specifierOf (models : String) (ref : ImportRef) : String :=
  match ref.specifier with
  | some specifier => if specifier = "" then models else specifier
  | none => models

/-- Add a reference to the group of its module, or in a group of its own at the end. -/
def insert (specifier : String) (ref : ImportRef) : List ImportGroup → List ImportGroup
  | [] => [⟨specifier, [ref]⟩]
  | g :: rest =>
    if g.specifier = specifier then
      { g with refs := if g.refs.contains ref then g.refs else g.refs ++ [ref] } :: rest
    else g :: insert specifier ref rest

/-- The references by module, in the order in which the modules are first needed. -/
def ofRefs (models : String) (refs : List ImportRef) : List ImportGroup :=
  refs.foldl (fun groups ref => insert (specifierOf models ref) ref groups) []

/-- The reference that is imported as the default. -/
def default? (g : ImportGroup) : Option ImportRef := g.refs.find? ImportRef.isDefault

/-- The names of the other symbols, each once and in order. -/
def named (g : ImportGroup) : List String :=
  (((g.refs.filter (!·.isDefault)).map ImportRef.name).eraseDups).mergeSort
    fun a b => decide (a ≤ b)

/-- No other symbol is used as a value. -/
def typesOnly (g : ImportGroup) : Bool :=
  !(g.refs.any fun ref => !ref.isDefault && ref.isValue)

def braced (names : List String) : String :=
  "\x7b " ++ String.intercalate ", " names ++ " \x7d"

def fromText (g : ImportGroup) : String := " from '" ++ g.specifier ++ "';"

/-- The statement for the symbols besides the default. -/
def namedLines (g : ImportGroup) : List String :=
  if g.named.isEmpty then []
  else
    [(if g.typesOnly then "import type " else "import ") ++ braced g.named ++ g.fromText]

/-- The import statements of a module. -/
def lines (profile : Profile) (dependencies : List Dependency) (g : ImportGroup) :
    List String :=
  match g.default? with
  | none => g.namedLines
  | some ref =>
    if Dependency.isSynthetic dependencies g.specifier ref.name && !profile.syntheticDefaults
    then ("import * as " ++ ref.name ++ g.fromText) :: g.namedLines
    else if g.named.isEmpty then ["import " ++ ref.name ++ g.fromText]
    else ["import " ++ ref.name ++ ", " ++ braced g.named ++ g.fromText]

end ImportGroup

/-- The import statements for references. -/
def importLines (profile : Profile) (dependencies : List Dependency) (models : String)
    (refs : List ImportRef) : List String :=
  (ImportGroup.ofRefs models refs).flatMap (ImportGroup.lines profile dependencies)

end ClientForge
