/-
# ClientForge.Client.Call -- calls and their arguments

A generated request function ends in one call.  Its arguments are kept as a tree, so that it
can be seen which variables a call reads; `render` writes them.
-/
import ClientForge.Config.Override
import ClientForge.Operation
import ClientForge.Types.Literal

namespace ClientForge

set_option autoImplicit false

/-- An entry of the object that configures a request. -/
inductive CallEntry where
  /-- A request option that every request has. -/
  | preset (key : Scalar) (value : Value)
  /-- All request options of the caller. -/
  | spread (name : String)
  /-- A variable under its own name. -/
  | shorthand (name : String)
  /-- A group of parameters, and behind it the caller's entries of the same kind. -/
  | merged (key name : String)
  /-- The body. -/
  | data (name : String)
  | url (path : String)
  | method (verb : Verb)
  /-- The content type, and behind it the headers of the operation. -/
  | headers (contentType : Option String) (name : Option String)

/-- An argument of a call. -/
inductive CallArgument where
  | route (path : String)
  | named (name : String)
  | undefined
  | object (entries : List CallEntry)

/-- A call; a spread-out one has a line for every argument. -/
structure Call where
  callee : String
  arguments : List CallArgument
  spreadOut : Bool

/-- Texts between braces. -/
def bracedList (texts : List String) : String :=
  "\x7b " ++ String.intercalate ", " texts ++ " \x7d"

/-- A path as a template literal. -/
def templateLiteral (route : String) : String := "\x60" ++ route ++ "\x60"

namespace CallEntry

def render : CallEntry → String
  | .preset key value =>
    Naming.propertyKey key.shown ++ ": " ++ (Literal.text? value).getD ""
  | .spread name => "..." ++ name
  | .shorthand name => name
  | .merged key name => key ++ ": " ++ bracedList ["..." ++ name, "...options?." ++ key]
  | .data name => "data: " ++ name
  | .url path => "url: " ++ templateLiteral path
  | .method verb => "method: '" ++ verb.name ++ "'"
  | .headers contentType name =>
    "headers: " ++ bracedList
      ((contentType.map fun t => "'Content-Type': '" ++ t ++ "'").toList ++
        (name.map fun n => "..." ++ n).toList)

/-- The request options that every request has, as entries. -/
def presets (options : Entries) : List CallEntry :=
  options.map fun (key, value) => .preset key value

end CallEntry

def CallArgument.render : CallArgument → String
  | .route path => templateLiteral path
  | .named name => name
  | .undefined => "undefined"
  | .object entries => bracedList (entries.map CallEntry.render)

def Call.render (c : Call) : String :=
  let arguments := c.arguments.map CallArgument.render
  if c.spreadOut then
    c.callee ++ "(\n" ++ String.join (arguments.map fun a => "    " ++ a ++ ",\n") ++ "  )"
  else c.callee ++ "(" ++ String.intercalate ", " arguments ++ ")"

end ClientForge
