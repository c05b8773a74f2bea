/-
# ClientForge.Files.Path -- paths by their parts

A path is a list of names below the root or below the working directory.  Empty parts and
single dots carry no information and are dropped when a path is read; a double dot is kept,
because it may lead out of a folder that is not there.  `Path.place` is the absolute list of
names that a path denotes when double dots are taken away together with the name before
them.
-/
import ClientForge.Text.Pieces

namespace ClientForge.Files

set_option autoImplicit false

/-- The names that lead from the root to a file or a folder. -/
abbrev Place := List String

/-- A path as it is written, without empty parts and single dots. -/
structure Path where
  absolute : Bool
  parts : List String
  deriving DecidableEq, Inhabited

namespace Path

/-- The parts of a written path. -/
def partsOf (text : String) : List String :=
  ((Text.splitOn '/' text.toList).map String.ofList).filter fun part => part ≠ "" ∧ part ≠ "."

def ofText (text : String) : Path := ⟨text.toList.head? == some '/', partsOf text⟩

/-- The written form of a path; the working directory itself is a single dot. -/
def text (p : Path) : String :=
  if p.absolute then "/" ++ String.intercalate "/" p.parts
  else if p.parts.isEmpty then "."
  else String.intercalate "/" p.parts

/-- A path below another one; an absolute path stands for itself. -/
def join (base p : Path) : Path :=
  if p.absolute then p else ⟨base.absolute, base.parts ++ p.parts⟩

/-- The folder that a path lies in, as far as the path tells. -/
def parent (p : Path) : Path := { p with parts := p.parts.dropLast }

/-- Whether a name holds the null character. -/
def hasNull (p : Path) : Bool := p.parts.any fun part => part.toList.contains (Char.ofNat 0)

/-- The last name of a path. -/
def name (p : Path) : String := p.parts.getLastD ""

/-- The end of the last name from its last dot on; a dot at either end of the name does not
count. -/
def suffix (p : Path) : String :=
  let name := p.name.toList
  let tail := name.reverse.takeWhile (· ≠ '.')
  if tail.isEmpty ∨ name.length ≤ tail.length + 1 then ""
  else String.ofList ('.' :: tail.reverse)

/-- Take a name away for every double dot. -/
def collapse : List String → Place → Place
  | [], done => done.reverse
  | part :: rest, done =>
    if part = ".." then collapse rest done.tail else collapse rest (part :: done)

/-- The place that a path denotes, seen from a working directory. -/
def place (workdir : Place) (p : Path) : Place :=
  collapse ((if p.absolute then [] else workdir) ++ p.parts) []

/-- The absolute path of a place. -/
def ofPlace (place : Place) : Path := ⟨true, place⟩

end Path

end ClientForge.Files
