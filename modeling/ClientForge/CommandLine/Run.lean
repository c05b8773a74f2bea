/-
# ClientForge.CommandLine.Run -- running the command

The command reads the settings, the profile and the document, in this order, and writes a
package.  It prints the paths of what it wrote, and a line for everything that failed; its
exit code is zero only if nothing did.  Warnings go to the error output, with the switch for
it every record does.  What is logged before the switches are read is shown without its
source.

Errors of the document and of the settings end the command with a message, and so does a
file that is missing or no text.  All other failures are handed on.
-/
import ClientForge.CommandLine.Arguments
import ClientForge.Document
import ClientForge.Package

namespace ClientForge.CommandLine

set_option autoImplicit false

open Files

/-- How the command ended. -/
inductive Outcome where
  | usage (reason : Usage)
  | ended (code : Nat) (output errors : List String)
  deriving DecidableEq

/-- A record as a line of the log. -/
def recordLine (r : Record) : String := r.level.name ++ " " ++ r.source.name ++ ": " ++ r.message

/-- The lines of the log that are shown. -/
def logLines (verbose : Bool) (log : Log) : List String :=
  (log.filter fun r => verbose || r.level == .warning).map recordLine

/-- The lines of what is logged before the switches are read. -/
def earlyLines (log : Log) : List String :=
  (log.filter fun r => r.level == .warning).map Record.message

def errorLine (message : String) : String := "error: " ++ message

/-- The message of a failure that ends the command. -/
def endingMessage? : Failure → Option String
  | .file .missing path => some (FileFault.missing.message path)
  | .file _ _ => none
  | failure => failure.message?

/-- The settings that the command line asks for. -/
def config (files : FileTable) (a : Arguments) : Attempt Config :=
  match a.config with
  | some path => Config.load files path.text
  | none => .ok {}

/-- The profile that the command line asks for. -/
def profile (files : FileTable) (a : Arguments) : Attempt Profile := do
  let profile ←
    match a.version with
    | some version => Profile.ofVersionText version
    | none => Profile.ofVersionParts []
  match a.tsconfig with
  | some path => profile.withSettingsFile files path.text
  | none => return profile

/-- What cannot be left open. -/
def needed {α : Type} : Option α → Attempt α
  | some a => .ok a
  | none => illShaped

/-- The flavors that the command line asks for. -/
def flavors (a : Arguments) : Attempt (List String) :=
  if a.flavors.isEmpty then .ok ["swr"] else a.flavors.mapM needed

/-- The place that the command line asks for. -/
def packagePlace (a : Arguments) : Attempt PackagePlace := do
  return ⟨← needed a.package, ← needed a.output⟩

/-- Do what the command line asks for. -/
def perform (registry : Registry) (pages : List (String × String)) (a : Arguments) :
    Filing PackageResult := do
  let (config, profile, api) ← Filing.inspect fun files => do
    let config ← config files a
    let profile ← profile files a
    let document ← Document.load ⟨files, pages⟩ (.location a.spec) none
    let api ← Api.ofDocument document
    return (config, profile, api)
  let flavors ← flavors a
  let place ← packagePlace a
  Package.generate registry config profile place flavors api

/-- How the command ends; the lines of the log come first. -/
def outcome (log : List String) : Attempt PackageResult → Attempt Outcome
  | .ok result =>
    .ok (.ended (if result.complete then 0 else 1) (result.paths.map Path.text)
      (log ++ result.failures.map fun report => errorLine report.text))
  | .error failure =>
    match endingMessage? failure with
    | some message => .ok (.ended 1 [] (log ++ [errorLine message]))
    | none => .error failure

/-- Run the command: the files that it leaves, and how it ended. -/
def run (offers : List FlavorOffer) (pages : List (String × String))
    (arguments : List String) (files : FileTable) : FileTable × Attempt Outcome :=
  let loading := Registry.builtIn.load offers
  match loading.result with
  | .error failure => (files, .error failure)
  | .ok (registry, _) =>
    match Arguments.read registry.available arguments with
    | .error reason => (files, .ok (.usage reason))
    | .ok a =>
      let (files, step) := (perform registry pages a).run files
      (files, outcome (earlyLines loading.log ++ logLines a.verbose step.log) step.result)

/-- What the command accepts. -/
def usageText : String :=
  "usage: hookify [-h] -o OUTPUT_DIR [-n PACKAGE_NAME] [--flavor FLAVOR] [--config CONFIG]\n" ++
    "               [--typescript-version TYPESCRIPT_VERSION] [--tsconfig TSCONFIG] [-v] spec"

end ClientForge.CommandLine
