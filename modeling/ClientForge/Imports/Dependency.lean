/-
# ClientForge.Imports.Dependency -- packages that generated code may use

A flavor names the packages that its code may use, with what they export.  Of these, the
code imports what it mentions: an export counts as used if its name stands in the code as a
whole word.
-/
import ClientForge.Imports.Ref
import ClientForge.Text.WholeWord

namespace ClientForge

set_option autoImplicit false

/-- A symbol of a package; `synthetic` marks a default that is the module itself. -/
structure Export where
  name : String
  isDefault : Bool := false
  isValue : Bool := false
  synthetic : Bool := false
  deriving DecidableEq

structure Dependency where
  package : String
  exports : List Export
  deriving DecidableEq

namespace Dependency

/-- The reference to an export of a package. -/
def ref (d : Dependency) (e : Export) : ImportRef :=
  { name := e.name, specifier := some d.package, isDefault := e.isDefault, isValue := e.isValue }

/-- The exports of packages that a text mentions. -/
def used (dependencies : List Dependency) (code : String) : List ImportRef :=
  dependencies.flatMap fun d =>
    (d.exports.filter fun e => Text.hasWord e.name code).map d.ref

/-- An export of these packages is the module itself, under a default's name. -/
def isSynthetic (dependencies : List Dependency) (package name : String) : Bool :=
  dependencies.any fun d =>
    d.package == package && d.exports.any fun e => e.synthetic && e.name == name

end Dependency

end ClientForge
