/-
# ClientForge.Failure -- what can go wrong, and how it is worded

There are two families.  A `Report` is an error of the document, the configuration or the
request: it has a `Cause`, and as soon as it is known to which operation it belongs also the
operation's name and its route.  `Report.placedAt` fills in what is missing and never overwrites,
so an error keeps the innermost place it was given.

Every other `Failure` comes from the surroundings: the file system, a file that is no text,
a text that has the form of a number, a date, an address or a code point and is none, a
version that has not two parts, or a document with a value of the wrong shape where the rules
give it no meaning (`illShaped`).

Causes carry data, not wording.  The wording is `Cause.message`.
-/
import ClientForge.Data.Display
import ClientForge.Text.Integer
import ClientForge.Text.Utf8

namespace ClientForge

set_option autoImplicit false

/-- The family of a reported error. -/
inductive ReportKind where
  | general
  | specification
  | unresolvedReference
  | configuration
  | unknownFlavor
  | malformedParameter
  | unsupportedLocation
  | unsupportedVerb
  deriving DecidableEq

/-- What the file system can answer instead of a file. -/
inductive FileFault where
  | missing
  | exists
  | notFolder
  | isFolder
  | tooLong
  deriving DecidableEq

/-- The number and the text of a file fault. -/
def FileFault.text : FileFault → String
  | .missing => "[Errno 2] No such file or directory"
  | .exists => "[Errno 17] File exists"
  | .notFolder => "[Errno 20] Not a directory"
  | .isFolder => "[Errno 21] Is a directory"
  | .tooLong => "[Errno 36] File name too long"

/-- The message of a file fault at a path. -/
def FileFault.message (fault : FileFault) (path : String) : String :=
  fault.text ++ ": " ++ Text.quoted path

/-- What is wrong with the host of an address. -/
inductive AddressFault where
  | brackets
  | futureVersion
  | versionFour
  | notNumeric (host : String)
  | hiddenDelimiter (host : String)
  deriving DecidableEq

def AddressFault.message : AddressFault → String
  | .brackets => "Invalid IPv6 URL"
  | .futureVersion => "IPvFuture address is invalid"
  | .versionFour => "An IPv4 address cannot be in brackets"
  | .notNumeric host => Text.quoted host ++ " does not appear to be an IPv4 or IPv6 address"
  | .hiddenDelimiter host =>
    "netloc '" ++ host ++ "' contains invalid characters under NFKC normalization"

/-- A configuration value of the wrong shape. -/
inductive ConfigFault where
  | notObject
  | overrideNotObject
  | operationsNotObjects
  | droppedMutator (operation : String)
  | nullMutator (operation : String)
  | requestOptionsShape
  | flagNotBoolean (key : String)
  | keyNotString (place : String)
  | noLiteralForm (place kind : String)
  | mutatorNotObject
  | mutatorFieldMissing (field : String)
  | bodyTypeNotString
  | swrNotObject
  | swrOptionsNotObject
  | unreadable (path reason : String)
  | settingsUnreadable (path reason : String)
  | compilerOptionsNotObject (path : String)
  deriving DecidableEq

/-- Why an error is reported. -/
inductive Cause where
  | documentNotObject
  | versionMissing
  | referenceNotString
  | mergeTargetNotObject
  | referencedDocumentNotObject (path : String)
  | invalidYaml
  | fetchFailed (url : String)
  | unsupportedFragment (fragment : String)
  | danglingPointer (fragment : String)
  | foreignReference (reference : String)
  | parameterWithoutSchema (name location : String)
  | parameterWithoutName (location : String)
  | parameterLocation (name location : String)
  | verbKind (verb : String)
  | unknownFlavor (name : String) (available : List String)
  | config (fault : ConfigFault)
  | raised (kind : ReportKind) (message : String)
  deriving DecidableEq

/-- What a message says in place of the wording of a syntax error: the readers keep no
position, so there is nothing more to say. -/
def syntaxDetail : String := "<detail>"

def ConfigFault.message : ConfigFault → String
  | .notObject => "Config file must contain an object"
  | .overrideNotObject => "'override' must be an object"
  | .operationsNotObjects => "'override.operations' must map operation ids to objects"
  | .droppedMutator operation =>
    "Operation '" ++ operation ++ "' cannot drop the global mutator"
  | .nullMutator operation =>
    "'override.operations." ++ operation ++ ".mutator' cannot be null"
  | .requestOptionsShape => "'requestOptions' must be a boolean or an object"
  | .flagNotBoolean key => "'" ++ key ++ "' must be a boolean"
  | .keyNotString place => "'" ++ place ++ "' keys must be strings"
  | .noLiteralForm place kind => "'" ++ place ++ "' must be a JSON value, got " ++ kind
  | .mutatorNotObject => "'mutator' must be an object"
  | .mutatorFieldMissing field => "'mutator." ++ field ++ "' is required"
  | .bodyTypeNotString => "'mutator.bodyTypeName' must be a string"
  | .swrNotObject => "'swr' must be an object"
  | .swrOptionsNotObject => "'swr.options' must be an object"
  | .unreadable path reason => "Cannot read config file " ++ path ++ ": " ++ reason
  | .settingsUnreadable path reason => "Cannot read tsconfig " ++ path ++ ": " ++ reason
  | .compilerOptionsNotObject path => "'compilerOptions' must be an object in " ++ path

/-- The wording of a cause. -/
def Cause.message : Cause → String
  | .documentNotObject => "OpenAPI document must be an object"
  | .versionMissing => "Missing or invalid 'openapi' field in document"
  | .referenceNotString => "$ref must be a string"
  | .mergeTargetNotObject => "$ref target must be an object when merged"
  | .referencedDocumentNotObject path => "Referenced document must be an object: " ++ path
  | .invalidYaml => "Invalid YAML: " ++ syntaxDetail
  | .fetchFailed url => "Failed to fetch URL: " ++ url
  | .unsupportedFragment fragment => "Unsupported $ref fragment: " ++ fragment
  | .danglingPointer fragment => "Unresolvable $ref pointer: #" ++ fragment
  | .foreignReference reference => "Unresolved $ref: " ++ reference
  | .parameterWithoutSchema name location =>
    "Parameter '" ++ name ++ "' (" ++ location ++ ") has neither schema nor content"
  | .parameterWithoutName location => "Parameter in '" ++ location ++ "' has no name"
  | .parameterLocation name location =>
    "Parameter '" ++ name ++ "' has unsupported location '" ++ location ++ "'"
  | .verbKind verb => "Verb '" ++ verb ++ "' is neither a query nor a mutation"
  | .unknownFlavor name available =>
    "Unknown flavor '" ++ name ++ "' (available: " ++ String.intercalate ", " available ++ ")"
  | .config fault => fault.message
  | .raised _ message => message

/-- The family of a cause. -/
def Cause.kind : Cause → ReportKind
  | .documentNotObject | .versionMissing | .referenceNotString | .mergeTargetNotObject
  | .referencedDocumentNotObject _ | .invalidYaml | .fetchFailed _ => .specification
  | .unsupportedFragment _ | .danglingPointer _ | .foreignReference _ => .unresolvedReference
  | .parameterWithoutSchema _ _ | .parameterWithoutName _ => .malformedParameter
  | .parameterLocation _ _ => .unsupportedLocation
  | .verbKind _ => .unsupportedVerb
  | .unknownFlavor _ _ => .unknownFlavor
  | .config _ => .configuration
  | .raised kind _ => kind

/-- A reported error and, as far as it is known, the operation it belongs to. -/
structure Report where
  cause : Cause
  operation : Option String := none
  route : Option String := none
  deriving DecidableEq

namespace Report

/-- Fill in the operation and the route where they are still unknown. -/
def placedAt (report : Report) (operation route : String) : Report :=
  { report with
    operation := some (report.operation.getD operation)
    route := some (report.route.getD route) }

/-- The message, behind the operation and its route once the operation is known. -/
def text (report : Report) : String :=
  match report.operation with
  | none => report.cause.message
  | some operation =>
    let place :=
      match report.route with
      | none => operation
      | some route => operation ++ " (" ++ route ++ ")"
    place ++ ": " ++ report.cause.message

/-- Only the first place that an error is given counts. -/
@[simp] theorem placedAt_placedAt (report : Report) (o₁ r₁ o₂ r₂ : String) :
    (report.placedAt o₁ r₁).placedAt o₂ r₂ = report.placedAt o₁ r₁ := by simp [placedAt]

@[simp] theorem placedAt_cause (report : Report) (operation route : String) :
    (report.placedAt operation route).cause = report.cause := rfl

end Report

/-- Why a computation has no result. -/
inductive Failure where
  | reported (report : Report)
  | file (fault : FileFault) (path : String)
  | nullInPath
  | notUtf8 (fault : Text.Utf8Fault)
  | badInteger (fault : Text.IntegerFault)
  | versionParts (count : Nat)
  | noSuchMoment (fault : MomentFault)
  | badAddress (fault : AddressFault)
  | noSuchCharacter
  | illShaped
  deriving DecidableEq

/-- A reported error without a place. -/
def Failure.of (cause : Cause) : Failure := .reported ⟨cause, none, none⟩

/-- The message for a version with too many or too few parts. -/
def versionPartsText (count : Nat) : String :=
  if 2 < count then "too many values to unpack (expected 2)"
  else "not enough values to unpack (expected 2, got " ++ toString count ++ ")"

/-- The message of a failure; a value of the wrong shape has none. -/
def Failure.message? : Failure → Option String
  | .reported report => some report.text
  | .file fault path => some (fault.message path)
  | .nullInPath => some "embedded null byte"
  | .notUtf8 fault => some fault.message
  | .badInteger fault => some fault.message
  | .versionParts count => some (versionPartsText count)
  | .noSuchMoment fault => some fault.message
  | .badAddress fault => some fault.message
  | .noSuchCharacter => some "chr() arg not in range(0x110000)"
  | .illShaped => none

/-- A result or a failure. -/
abbrev Attempt (α : Type) := Except Failure α

/-- Fail for a reported cause. -/
def reject {α : Type} (cause : Cause) : Attempt α := .error (.of cause)

/-- Fail because a value has a shape that the rules give no meaning. -/
def illShaped {α : Type} : Attempt α := .error .illShaped

end ClientForge
