/-
# ClientForge.Types.Expression -- type expressions and their text

A type expression is a tree; `render` writes it.  The text decides three things that the
tree alone does not:

* repeated texts in a union or an intersection are written once (`joinDistinct`);
* a member is put in parentheses if its text has the other operator outside all brackets
  (`hasTopLevel`, which counts the brackets of a text, those inside literals included);
* a type whose text is already `unknown` or `null` is not made nullable.

The alternatives of a list of type names or of an enumeration (`choice`) are joined as they
are, without parentheses.
-/
import ClientForge.Types.Literal
import ClientForge.Imports.Ref

namespace ClientForge

set_option autoImplicit false

/-- The types that TypeScript brings along. -/
inductive Primitive where
  | string
  | number
  | boolean
  | null
  | date
  | blob
  deriving DecidableEq

/-- What a member of an object type is for. -/
inductive MemberKey where
  | property (name : String) (optional : Bool)
  | index
  deriving DecidableEq

/-- A type expression; `named` holds the name of a component schema. -/
inductive TypeExpr where
  | unknown
  | primitive (type : Primitive)
  | named (schema : String)
  | literal (value : Value)
  | array (item : TypeExpr)
  | union (members : List TypeExpr)
  | choice (members : List TypeExpr)
  | intersection (members : List TypeExpr)
  | object (members : List (MemberKey × TypeExpr))
  | nullable (base : TypeExpr)
  deriving Inhabited

/-- The type that nothing is known about. -/
def unknownText : String := "unknown"

def Primitive.text : Primitive → String
  | .string => "string"
  | .number => "number"
  | .boolean => "boolean"
  | .null => "null"
  | .date => "Date"
  | .blob => "Blob"

/-- The name of a member of an object type, up to its type. -/
def MemberKey.text : MemberKey → String
  | .property name optional => Naming.propertyKey name ++ (if optional then "?" else "")
  | .index => "[key: string]"

namespace TypeExpr

def isOpening (c : Char) : Bool := c == '\x7b' || c == '(' || c == '[' || c == '<'

def isClosing (c : Char) : Bool := c == '\x7d' || c == ')' || c == ']' || c == '>'

/-- Whether an operator between blanks stands outside all brackets of a text; the number is
the count of brackets that are open. -/
def hasTopLevelFrom (operator : Char) : Int → List Char → Bool
  | _, [] => false
  | openCount, c :: rest =>
    if isOpening c then hasTopLevelFrom operator (openCount + 1) rest
    else if isClosing c then hasTopLevelFrom operator (openCount - 1) rest
    else
      (openCount == 0 && c == ' ' && rest.take 2 == [operator, ' ']) ||
        hasTopLevelFrom operator openCount rest

def hasTopLevel (operator : Char) (text : String) : Bool :=
  hasTopLevelFrom operator 0 text.toList

/-- Put a text in parentheses if it has the operator outside all brackets. -/
def parenthesized (operator : Char) (text : String) : String :=
  if hasTopLevel operator text then "(" ++ text ++ ")" else text

/-- Join texts without repeats; there is nothing to know about no text at all. -/
def joinDistinct (separator : String) (texts : List String) : String :=
  match texts.eraseDups with
  | [] => unknownText
  | distinct => String.intercalate separator distinct

/-- The text of an array of items. -/
def arrayText (item : String) : String :=
  (if hasTopLevel '|' item || hasTopLevel '&' item then "(" ++ item ++ ")" else item) ++ "[]"

/-- The text of an object type. -/
def objectText (members : List String) : String :=
  if members.isEmpty then "\x7b \x7d" else "\x7b " ++ String.intercalate "; " members ++ " \x7d"

/-- The text of a type that may also be null. -/
def nullableText (base : String) : String :=
  if base = unknownText ∨ base = "null" then base else base ++ " | null"

mutual

/-- The text of a type expression. -/
def render : TypeExpr → String
  | .unknown => unknownText
  | .primitive p => p.text
  | .named schema => Naming.pascal schema
  | .literal value => (Literal.typeText? value).getD ""
  | .array item => arrayText (render item)
  | .union members => joinDistinct " | " ((renderList members).map (parenthesized '&'))
  | .choice members => joinDistinct " | " (renderList members)
  | .intersection members => joinDistinct " & " ((renderList members).map (parenthesized '|'))
  | .object members => objectText (renderMembers members)
  | .nullable base => nullableText (render base)

def renderList : List TypeExpr → List String
  | [] => []
  | e :: rest => render e :: renderList rest

def renderMembers : List (MemberKey × TypeExpr) → List String
  | [] => []
  | (key, e) :: rest => (key.text ++ ": " ++ render e) :: renderMembers rest

end

mutual

/-- The component schemas that an expression names, from left to right. -/
def names : TypeExpr → List String
  | .unknown => []
  | .primitive _ => []
  | .named schema => [schema]
  | .literal _ => []
  | .array item => names item
  | .union members => namesOfList members
  | .choice members => namesOfList members
  | .intersection members => namesOfList members
  | .object members => namesOfMembers members
  | .nullable base => names base

def namesOfList : List TypeExpr → List String
  | [] => []
  | e :: rest => names e ++ namesOfList rest

def namesOfMembers : List (MemberKey × TypeExpr) → List String
  | [] => []
  | (_, e) :: rest => names e ++ namesOfMembers rest

end

/-- The models that an expression refers to, without repeats. -/
def imports (e : TypeExpr) : List ImportRef :=
  distinctRefs (e.names.map fun schema => .model (Naming.pascal schema))

end TypeExpr

/-- The text of a type and the models that it refers to. -/
structure ResolvedType where
  text : String
  imports : List ImportRef
  deriving DecidableEq

def TypeExpr.resolved (e : TypeExpr) : ResolvedType := ⟨e.render, e.imports⟩

end ClientForge
