/-
# ClientForge.CommandLine.Arguments -- reading the command line

A long switch may be cut short as long as it stays the only one that begins like this, and
may carry its value behind an equals sign.  Short switches may stand together in one
argument, the value of the last one right behind it or in the next argument; an equals sign
is left out of the value only behind the first letter.  Two dashes on their own end the
switches, and right behind a switch they stand for no value at all: the switch counts as given
then, without anything to go by.  A number with a minus sign, and text with a blank in it, are
no switches.

Reading has two steps: every argument is taken for an item (`Item.ofArguments`), and the
items are put together from left to right (`Draft.readAll`).  An abbreviation that may mean
several switches makes the whole line unreadable.  The request for help counts as soon as it
is met, unless something is wrong in the argument that holds it; a switch that is not known
and a surplus argument count at the end.
-/
import ClientForge.Files.Path
import ClientForge.Text.Alphanumeric

namespace ClientForge.CommandLine

set_option autoImplicit false

open Files

/-- The switches of the command. -/
inductive Switch where
  | help
  | outputDir
  | packageName
  | flavor
  | config
  | typescriptVersion
  | tsconfig
  | verbose
  deriving DecidableEq

namespace Switch

def all : List Switch :=
  [.help, .outputDir, .packageName, .flavor, .config, .typescriptVersion, .tsconfig, .verbose]

/-- The name behind two dashes. -/
def name : Switch → String
  | .help => "help"
  | .outputDir => "output-dir"
  | .packageName => "package-name"
  | .flavor => "flavor"
  | .config => "config"
  | .typescriptVersion => "typescript-version"
  | .tsconfig => "tsconfig"
  | .verbose => "verbose"

/-- The letter behind one dash. -/
def letter? : Switch → Option Char
  | .help => some 'h'
  | .outputDir => some 'o'
  | .packageName => some 'n'
  | .verbose => some 'v'
  | .flavor | .config | .typescriptVersion | .tsconfig => none

def takesValue : Switch → Bool
  | .help | .verbose => false
  | .outputDir | .packageName | .flavor | .config | .typescriptVersion | .tsconfig => true

def ofLetter? (c : Char) : Option Switch := all.find? fun s => s.letter? = some c

/-- The switches that a long name, or its beginning, may mean. -/
def matching (name : List Char) : List Switch :=
  match all.find? fun s => s.name.toList = name with
  | some s => [s]
  | none => all.filter fun s => name.isPrefixOf s.name.toList

end Switch

/-- What an argument is taken for: several switches in one argument are those without a value
that stand in front, and the last one. -/
inductive Item where
  | plain (text : String)
  | divider
  | switches (inFront : List Switch) (last : Switch) (value : Option String)
  | unknown
  | ambiguous
  | invalid
  deriving DecidableEq

/-- A number with a minus sign in front of it, which has been taken away; a line end behind
it does not count. -/
def isNumber (cs : List Char) : Bool :=
  let isDigit (c : Char) : Bool := (Text.decimalDigit? c).isSome
  let cs := if cs.getLast? = some '\n' then cs.dropLast else cs
  let whole := cs.takeWhile isDigit
  match cs.dropWhile isDigit with
  | [] => !whole.isEmpty
  | '.' :: rest => !rest.isEmpty && rest.all isDigit
  | _ => false

namespace Item

/-- A short switch and what stands behind it; behind one that takes no value the letters are
switches themselves. -/
def cluster (s : Switch) : List Char → Item
  | [] => .switches [] s none
  | c :: rest =>
    if s.takesValue then .switches [] s (some (String.ofList (c :: rest)))
    else
      match Switch.ofLetter? c with
      | none => .invalid
      | some next =>
        match cluster next rest with
        | .switches inFront last value => .switches (s :: inFront) last value
        | item => item

/-- An argument that begins with a short switch; right behind it an equals sign may stand. -/
def short (s : Switch) (rest : List Char) : Item :=
  match rest with
  | ['='] => if s.takesValue then .switches [] s (some "") else .invalid
  | '=' :: value => cluster s value
  | _ => cluster s rest

/-- A long switch, with its value if there is an equals sign. -/
def long (text : List Char) : Item :=
  let (name, value) := Text.cutAt '=' text
  match Switch.matching name with
  | [s] =>
    if value.isSome && !s.takesValue then .invalid
    else .switches [] s (value.map String.ofList)
  | [] => if text.contains ' ' then .plain (String.ofList ('-' :: '-' :: text)) else .unknown
  | _ :: _ :: _ => .ambiguous

/-- What an argument in front of the divider is taken for. -/
def ofArgument (text : String) : Item :=
  match text.toList with
  | ['-', '-'] => .divider
  | '-' :: '-' :: name => long name
  | '-' :: c :: rest =>
    match Switch.ofLetter? c with
    | some s => short s rest
    | none =>
      if isNumber (c :: rest) ∨ (c :: rest).contains ' ' then .plain text else .unknown
  | _ => .plain text

/-- What the arguments are taken for; behind the divider there are no switches. -/
def ofArguments : List String → List Item
  | [] => []
  | text :: rest =>
    if text = "--" then .divider :: rest.map .plain else ofArgument text :: ofArguments rest

end Item

/-- What the command line asks for; where there has to be a value, a switch that was given
without one leaves a gap. -/
structure Arguments where
  spec : String
  output : Option Path
  package : Option String
  flavors : List (Option String)
  config : Option Path
  version : Option String
  tsconfig : Option Path
  verbose : Bool

/-- Why a command line is not run: it asks for help, or it cannot be read. -/
inductive Usage where
  | help
  | invalid
  deriving DecidableEq

/-- The arguments that have been read so far; `behindSpec` says that nothing came after the
document, and `surplus` that something has no meaning. -/
structure Draft where
  spec : Option String := none
  output : Option (Option Path) := none
  package : Option String := some "api"
  flavors : List (Option String) := []
  config : Option Path := none
  version : Option String := some "4.5"
  tsconfig : Option Path := none
  verbose : Bool := false
  behindSpec : Bool := false
  surplus : Bool := false

namespace Draft

/-- An argument that is no switch: the first one is the document. -/
def plain (d : Draft) (text : String) : Draft :=
  match d.spec with
  | none => { d with spec := some text, behindSpec := true }
  | some _ => { d with surplus := true }

/-- The divider stands in front of the document or right behind it. -/
def divider (d : Draft) : Draft :=
  if d.spec.isNone || d.behindSpec then d else { d with surplus := true }

/-- The value right behind a switch: two dashes are none. -/
def attached (text : String) : Option String := if text = "--" then none else some text

/-- Set what a switch sets; a flavor has to be one of those that are known. -/
def set (known : List String) (d : Draft) (s : Switch) (value : Option String) :
    Except Usage Draft :=
  let d := { d with behindSpec := false }
  match s with
  | .help => .error .help
  | .verbose => .ok { d with verbose := true }
  | .outputDir => .ok { d with output := some (value.map .ofText) }
  | .packageName => .ok { d with package := value }
  | .flavor =>
    if value.all known.contains then .ok { d with flavors := d.flavors ++ [value] }
    else .error .invalid
  | .config => .ok { d with config := value.map .ofText }
  | .typescriptVersion => .ok { d with version := value }
  | .tsconfig => .ok { d with tsconfig := value.map .ofText }

/-- Set switches that take no value. -/
def setAll (known : List String) (d : Draft) (switches : List Switch) : Except Usage Draft :=
  switches.foldlM (fun d s => d.set known s none) d

/-- Put items together, from left to right. -/
def readAll (known : List String) : Draft → List Item → Except Usage Draft
  | d, [] => .ok d
  | d, .plain text :: rest => readAll known (d.plain text) rest
  | d, .divider :: rest => readAll known d.divider rest
  | d, .unknown :: rest => readAll known { d with surplus := true, behindSpec := false } rest
  | _, .ambiguous :: _ => .error .invalid
  | _, .invalid :: _ => .error .invalid
  | d, .switches inFront s (some value) :: rest => do
    readAll known (← (← d.setAll known inFront).set known s (attached value)) rest
  | d, .switches inFront s none :: rest =>
    if s.takesValue then
      match rest with
      | .plain value :: rest => do
        readAll known (← (← d.setAll known inFront).set known s (some value)) rest
      | _ => .error .invalid
    else do readAll known (← (← d.setAll known inFront).set known s none) rest

/-- A draft that lacks nothing and has nothing to spare. -/
def finish (d : Draft) : Except Usage Arguments :=
  match d.spec, d.output with
  | some spec, some output =>
    if d.surplus then .error .invalid
    else .ok {
      spec, output
      package := d.package
      flavors := d.flavors
      config := d.config
      version := d.version
      tsconfig := d.tsconfig
      verbose := d.verbose }
  | _, _ => .error .invalid

end Draft

/-- Read a command line; the flavors that are known are given. -/
def Arguments.read (known : List String) (arguments : List String) : Except Usage Arguments := do
  let items := Item.ofArguments arguments
  if items.contains .ambiguous then .error .invalid
  else (← Draft.readAll known {} items).finish

end ClientForge.CommandLine
