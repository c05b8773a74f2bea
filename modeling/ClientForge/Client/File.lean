/-
# ClientForge.Client.File -- the file of a flavor

A file has one header, the implementations of its operations in the order of the contracts,
and one block of imports for all of them.  The imports of an operation are the symbols that
its code refers to on purpose and, of what the packages of the flavor export, what its code
mentions.  An operation that cannot be written is recorded and passed over.
-/
import ClientForge.Client.Flavor
import ClientForge.Imports.Block

namespace ClientForge

set_option autoImplicit false

/-- One operation in a flavor, with the header of a file for it. -/
structure OperationCode where
  name : String
  header : String
  implementation : String
  imports : List ImportRef
  dependencies : List Dependency

/-- All code of an operation. -/
def OperationCode.code (e : OperationCode) : String := e.header ++ e.implementation

/-- The file of a flavor, and the operations that could not be written. -/
structure ClientFile where
  flavor : String
  header : String
  dependencies : List Dependency
  implementations : List String := []
  imports : ImportSet := {}
  failures : List Report := []

/-- The first lines of every client file. -/
def generatedBanner : String := "/**\n * Generated by hookify. Do not edit manually.\n */"

namespace ClientFile

/-- The sections of the file: banner, imports, header, and one for each operation. -/
def sections (profile : Profile) (f : ClientFile) : List String :=
  let imports := importLines profile f.dependencies modelsSpecifier f.imports.refs
  [generatedBanner] ++
    (if imports.isEmpty then [] else [String.intercalate "\n" imports]) ++
    (if f.header = "" then [] else [Text.trimLines f.header]) ++
    f.implementations.map Text.trimLines

/-- The text of the file. -/
def render (profile : Profile) (f : ClientFile) : String :=
  String.intercalate "\n\n" (f.sections profile) ++ "\n"

/-- The file with one operation more. -/
def add (f : ClientFile) (e : OperationCode) : ClientFile :=
  { f with
    implementations := f.implementations ++ [e.implementation]
    imports := f.imports.insertAll e.imports }

end ClientFile

namespace Flavor

/-- One operation in a flavor. -/
def codeOf (f : Flavor) (flags : HeaderFlags) (allMutated : Bool) (c : Contract) :
    Traced OperationCode := do
  let dependencies := f.dependencies allMutated
  let header := f.header flags
  let code ← f.client c
  return {
    name := c.name
    header
    implementation := code.implementation
    imports :=
      distinctRefs (code.imports ++
        Dependency.used dependencies (header ++ code.implementation))
    dependencies }

/-- Add an operation to a file, or its failure. -/
def addTo (f : Flavor) (flags : HeaderFlags) (allMutated : Bool) (file : ClientFile)
    (c : Contract) : Traced ClientFile := do
  match ← (f.codeOf flags allMutated c).attempt with
  | .ok operation => return file.add operation
  | .error (.reported report) =>
    Traced.record .warning .driver
      ("Skipping " ++ c.name ++ " in " ++ f.name ++ " output: " ++ report.cause.message)
    return { file with failures := file.failures ++ [report.placedAt c.name c.location] }
  | .error failure => Traced.fail failure

/-- The file of a flavor for these operations. -/
def fileOf (f : Flavor) (allMutated : Bool) (contracts : List Contract) :
    Traced ClientFile := do
  let flags := f.flags contracts
  let start : ClientFile := {
    flavor := f.name
    header := f.header flags
    dependencies := f.dependencies allMutated }
  let file ← contracts.foldlM (f.addTo flags allMutated) start
  Traced.record .debug .driver
    ("Rendered " ++ toString file.implementations.length ++ " operations for flavor " ++ f.name)
  return file

end Flavor

end ClientForge
