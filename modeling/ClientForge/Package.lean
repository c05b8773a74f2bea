/-
# ClientForge.Package -- the files of a client package

A package is a folder with the models module and one file for every flavor that is asked
for.  The flavors are looked up before anything is written.  An operation whose settings or
whose contract cannot be read is recorded and passed over, and so is one that a flavor
cannot write; the result lists the failures in that order.
-/
import ClientForge.Client.File
import ClientForge.Client.Registry
import ClientForge.Files.Filing
import ClientForge.Models

namespace ClientForge

set_option autoImplicit false

open Files

/-- Where a package is written. -/
structure PackagePlace where
  name : String
  output : Path

/-- The files that were written, models first, and what could not be generated. -/
structure PackageResult where
  paths : List Path
  failures : List Report

/-- Everything was generated. -/
def PackageResult.complete (r : PackageResult) : Bool := r.failures.isEmpty

/-- The contract of an operation under the settings that apply to it. -/
def Config.contractFor (config : Config) (op : Operation) : Traced Contract := do
  op.contract (← config.overrideFor op.id op.extensions)

namespace Package

def folder (place : PackagePlace) : Path := place.output.join (.ofText place.name)

def modelsPath (place : PackagePlace) : Path := (folder place).join (.ofText "model.ts")

/-- The file of a flavor. -/
def clientPath (place : PackagePlace) (flavor : String) : Path :=
  (folder place).join (.ofText (flavor ++ ".ts"))

/-- The contracts that can be built, and the failures of the others. -/
def contracts (config : Config) : List Operation → Traced (List Contract × List Report)
  | [] => return ([], [])
  | op :: rest => do
    match ← (config.contractFor op).attempt with
    | .ok contract =>
      let (contracts, failures) ← contracts config rest
      return (contract :: contracts, failures)
    | .error (.reported report) =>
      Traced.record .warning .package ("Skipping operation: " ++ report.text)
      let (contracts, failures) ← contracts config rest
      return (contracts, report :: failures)
    | .error failure => Traced.fail failure

/-- Write a text to a file of the package, and say what it holds. -/
def write (path : Path) (text : String) (count : Nat) (things : String) : Filing Unit := do
  Filing.writeText path text
  Traced.record .info .package
    ("Wrote " ++ toString count ++ " " ++ things ++ " to " ++ path.text)

/-- Write the files of flavors. -/
def writeClients (place : PackagePlace) (allMutated : Bool) (contracts : List Contract) :
    List Flavor → Filing PackageResult
  | [] => return ⟨[], []⟩
  | flavor :: rest => do
    let file ← flavor.fileOf allMutated contracts
    let path := clientPath place flavor.name
    write path (file.render flavor.profile) file.implementations.length "operations"
    let later ← writeClients place allMutated contracts rest
    return ⟨path :: later.paths, file.failures ++ later.failures⟩

/-- Write a package with a file for each of the named flavors. -/
def generate (registry : Registry) (config : Config) (profile : Profile)
    (place : PackagePlace) (flavors : List String) (api : Api) : Filing PackageResult := do
  let chosen ← (flavors.mapM fun name => registry.get name profile : Attempt (List Flavor))
  Filing.makeFolder (folder place)
  let (contracts, failures) ← contracts config api.operations
  let models ← ModelsFile.build config.override.useDates api.schemas contracts
  write (modelsPath place) models.render models.names.length "models"
  let clients ← writeClients place config.hasGlobalMutator contracts chosen
  return ⟨modelsPath place :: clients.paths, failures ++ clients.failures⟩

end Package

end ClientForge
