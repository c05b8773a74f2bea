/-
# ClientForge.Profile -- what the target project understands

Two facts about the project that the generated code goes into: whether its compiler has the
type `Awaited`, which came with version 4.5, and whether a module without a default export
may be imported as if it had one.  The first depends on the version, a text or two numbers
(`ofVersionText`, `ofVersionParts`).  The second is taken from the compiler's settings: from
the option of that name, else from the one that implies it.
-/
import ClientForge.Files.Structured
import ClientForge.Json.Comments
import ClientForge.Text.Integer

namespace ClientForge

set_option autoImplicit false

open Files

structure Profile where
  hasAwaited : Bool
  syntheticDefaults : Bool
  deriving DecidableEq

namespace Profile

/-- The profile for a version of the compiler. -/
def ofVersion (major minor : Int) : Profile :=
  ⟨4 < major || (major == 4 && 5 ≤ minor), true⟩

/-- A part of a version is this number. -/
def partIs (n : Nat) : Value → Bool
  | .atom (.int i) => i == n
  | .atom (.float x) => x.equalsInt n
  | _ => false

/-- A part of a version is at least this number; only numbers can be compared with it. -/
def partReaches (n : Nat) : Value → Attempt Bool
  | .atom (.int i) => .ok (n ≤ i)
  | .atom (.float x) => .ok (x.atLeast n)
  | .atom (.bool b) => .ok (n ≤ b.toNat)
  | _ => illShaped

/-- The profile for a version by its parts, of which there have to be two; the second one is
looked at only if the first one does not decide. -/
def ofVersionParts : List Value → Attempt Profile
  | [major, minor] => do
    return ⟨← if partIs 4 major then partReaches 5 minor else partReaches 4 major, true⟩
  | parts => .error (.versionParts parts.length)

/-- Whole numbers give the profile for their version. -/
theorem ofVersionParts_int (major minor : Int) :
    ofVersionParts [.atom (.int major), .atom (.int minor)] = .ok (ofVersion major minor) := by
  by_cases h : major = 4
  · subst h
    simp [ofVersionParts, partIs, partReaches, ofVersion, bind, Except.bind, pure, Except.pure]
  · have : decide (4 ≤ major) = decide (4 < major) := by
      simp only [decide_eq_decide]
      omega
    simp [ofVersionParts, partIs, partReaches, ofVersion, bind, Except.bind, pure, Except.pure,
      h, this]

/-- A part of a version has to be a whole number. -/
def versionPart (part : List Char) : Attempt Int :=
  (Text.integer (String.ofList part)).mapError .badInteger

/-- The profile for a written version; its first two parts count. -/
def ofVersionText (version : String) : Attempt Profile := do
  match Text.splitOn '.' version.toList with
  | major :: minor :: _ => return ofVersion (← versionPart major) (← versionPart minor)
  | [major] => return ofVersion (← versionPart major) 0
  | [] => return ofVersion (← versionPart []) 0

/-- What the compiler's options say about default imports. -/
def syntheticOption? (options : Entries) : Option Bool :=
  match Entries.get? "allowSyntheticDefaultImports" options with
  | some v => some v.truthy
  | none => (Entries.get? "esModuleInterop" options).map Value.truthy

/-- The profile refined by the compiler's settings. -/
def withSettings (profile : Profile) (path : String) (settings : Value) : Attempt Profile :=
  match settings with
  | .map entries =>
    match (Entries.get? "compilerOptions" entries).getD (.map []) with
    | .map options =>
      .ok { profile with
        syntheticDefaults := (syntheticOption? options).getD profile.syntheticDefaults }
    | _ => reject (.config (.compilerOptionsNotObject path))
  | _ => .ok profile

/-- The profile refined by the compiler's settings file. -/
def withSettingsFile (files : FileTable) (profile : Profile) (path : String) :
    Attempt Profile :=
  match files.readText (.ofText path) with
  | .error (.file fault shown) =>
    reject (.config (.settingsUnreadable path (fault.message shown)))
  | .error failure => .error failure
  | .ok text =>
    match Json.read (Json.plainJson text) with
    | .error .malformed => reject (.config (.settingsUnreadable path syntaxDetail))
    | .error (.number fault) => .error (.badInteger fault)
    | .ok settings => profile.withSettings path settings

end Profile

end ClientForge
