/-
# ClientForge.Document -- loading a document

A document is given as a value, as the path of a file, or as an address on the web; it has
to be a map with a version.  Its references are inlined before anything else looks at it.
Relative references start from the given folder, else from the folder of the file, else from
the working directory.

Pages on the web are a finite table, as files are.
-/
import ClientForge.Reference.Resolver
import ClientForge.Traced

namespace ClientForge

set_option autoImplicit false

open Files

/-- What lies outside the program: files and pages. -/
structure World where
  files : FileTable
  pages : List (String × String)

/-- Where a document comes from. -/
inductive Origin where
  | given (value : Value)
  | location (text : String)

namespace Document

/-- The text of a page. -/
def fetch (world : World) (url : String) : Attempt String :=
  match world.pages.lookup url with
  | some text => .ok text
  | none => reject (.fetchFailed url)

/-- A document before its references are inlined, and where they start from. -/
def readOrigin (world : World) (origin : Origin) (base : Option Path) :
    Attempt (Value × Option Path) :=
  match origin with
  | .given value => .ok (value, base)
  | .location text => do
    if ← Address.isWeb text then
      let page ← fetch world text
      let value ← parseStructured (← Address.extension text) page
      return (value, base)
    else
      let path := Path.ofText text
      let value ← world.files.readStructured path
      return (value, some (base.getD path.parent))

/-- The version that a document states. -/
def version (value : Value) : Attempt String :=
  match value with
  | .map entries =>
    match Entries.get? "openapi" entries with
    | some (.atom (.str version)) => .ok version
    | _ => reject .versionMissing
  | _ => reject .documentNotObject

/-- Read a document and inline its references. -/
def load (world : World) (origin : Origin) (base : Option Path) : Traced Value := do
  let (value, base) ← readOrigin world origin base
  let version ← version value
  Traced.record .debug .loader ("Resolving references in OpenAPI " ++ version ++ " document")
  (Resolver.resolve world.files (.start value base)).1

end Document

end ClientForge
