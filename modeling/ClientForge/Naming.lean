/-
# ClientForge.Naming -- names of the generated code

A name of a document is cut into words (`words`) at everything that is neither a letter nor
a number, and where a capital follows a small letter or a digit; both of these are ASCII, as
the names of a document mostly are.  Type names join the words with capitals (`pascal`).
Function and variable names begin small, and with a low line where they would begin with a
digit (`camel`).
-/
import ClientForge.Text.Alphanumeric
import ClientForge.Text.CaseMap
import ClientForge.Text.Pieces

namespace ClientForge.Naming

set_option autoImplicit false

/-- Every run of separators as one blank. -/
def separated : Bool → List Char → List Char
  | _, [] => []
  | behindSeparator, c :: rest =>
    if Text.isAlphanumeric c then c :: separated false rest
    else if behindSeparator then separated true rest
    else ' ' :: separated true rest

def isSmall (c : Char) : Bool := 'a' ≤ c && c ≤ 'z'

def isSmallOrDigit (c : Char) : Bool := isSmall c || Text.isAsciiDigit c

def isCapital (c : Char) : Bool := 'A' ≤ c && c ≤ 'Z'

/-- A blank between a small letter or a digit and the capital behind it. -/
def humpsApart : List Char → List Char
  | [] => []
  | [c] => [c]
  | c :: d :: rest =>
    if isSmallOrDigit c && isCapital d then c :: ' ' :: humpsApart (d :: rest)
    else c :: humpsApart (d :: rest)

/-- The parts between blanks; none is empty. -/
def fields (s : List Char) : List (List Char) :=
  (Text.splitOn ' ' s).filter (!·.isEmpty)

/-- The words of a name. -/
def words (name : List Char) : List (List Char) := fields (humpsApart (separated false name))

/-- A word with its first letter in upper case. -/
def capitalized : List Char → List Char
  | [] => []
  | c :: rest => Text.upperChar c ++ rest

/-- The words of a name, each with a capital, on the characters of the name. -/
def pascalChars (name : List Char) : List Char := (words name).flatMap capitalized

/-- Whether a name would begin with a digit. -/
def beginsWithDigit : List Char → Bool
  | [] => false
  | c :: _ => Text.isDigit c

/-- A text with its first letter in lower case. -/
def uncapitalized : List Char → List Char
  | [] => []
  | c :: rest => Text.lowerChar c ++ rest

/-- The name of a variable, on the characters of the name. -/
def camelChars (name : List Char) : List Char :=
  let joined := pascalChars name
  if beginsWithDigit joined then '_' :: joined else uncapitalized joined

/-- The name of a type. -/
def pascal (name : String) : String := String.ofList (pascalChars name.toList)

/-- The name of a variable or a function. -/
def camel (name : String) : String := String.ofList (camelChars name.toList)

/-- The name of an operation: its own, or else one made of verb and path. -/
def operationName (id : Option String) (verb path : String) : String :=
  match id with
  | some id => if id = "" then camel (verb ++ " " ++ path) else camel id
  | none => camel (verb ++ " " ++ path)

/-- A part of a path: a literal character, or a parameter in braces. -/
inductive RoutePart where
  | char (c : Char)
  | parameter (name : List Char)
  deriving DecidableEq

/-- A brace opens a parameter if it is closed further on, and not at once. -/
def opensParameter (rest : List Char) : Bool :=
  rest.head? != some '\x7d' && rest.contains '\x7d'

/-- The parts of a path; behind an open brace the name so far is kept in reverse. -/
def routeParts : Option (List Char) → List Char → List RoutePart
  | _, [] => []
  | none, c :: rest =>
    if c = '\x7b' ∧ opensParameter rest then routeParts (some []) rest
    else .char c :: routeParts none rest
  | some name, c :: rest =>
    if c = '\x7d' then .parameter name.reverse :: routeParts none rest
    else routeParts (some (c :: name)) rest

/-- A part of a path inside a template literal. -/
def RoutePart.text : RoutePart → List Char
  | .char c => [c]
  | .parameter name => ['$', '\x7b'] ++ camelChars name ++ ['\x7d']

/-- The body of the template literal for a path: every parameter becomes a variable. -/
def templateRoute (path : String) : String :=
  String.ofList ((routeParts none path.toList).flatMap RoutePart.text)

def isIdentifierStart (c : Char) : Bool :=
  isSmall c || isCapital c || c == '_' || c == '$'

def isIdentifierChar (c : Char) : Bool := isIdentifierStart c || Text.isAsciiDigit c

/-- A name that stands without quotes; a line feed at its end does not count. -/
def isIdentifier : List Char → Bool
  | [] => false
  | c :: rest =>
    isIdentifierStart c &&
      (rest.all isIdentifierChar ||
        (rest.getLast? == some '\n' && rest.dropLast.all isIdentifierChar))

/-- The name of a property, quoted unless it is an identifier. -/
def propertyKey (name : String) : String :=
  if isIdentifier name.toList then name else "'" ++ name ++ "'"

end ClientForge.Naming
