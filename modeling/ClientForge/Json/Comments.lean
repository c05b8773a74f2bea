/-
# ClientForge.Json.Comments -- JSON with comments and trailing commas

A compiler's settings file is JSON in which comments and a comma before a closing bracket
are allowed.  Two passes over the text turn it into JSON:

* `dropComments` removes line comments and block comments.  A string is kept as it stands;
  a quote that is never closed and a block comment that is never closed begin nothing;
* `dropTrailingCommas` removes every comma with only blanks between it and a closing
  bracket.  It does not look for strings.
-/
import ClientForge.Text.Ranges

namespace ClientForge.Json

set_option autoImplicit false

/-- Whether a string that has begun is closed. -/
def closesString : List Char → Bool
  | [] => false
  | '\\' :: rest =>
    match rest with
    | [] => false
    | _ :: rest => closesString rest
  | '"' :: _ => true
  | _ :: rest => closesString rest

/-- Whether a block comment that has begun is closed. -/
def closesBlock : List Char → Bool
  | [] => false
  | '*' :: '/' :: _ => true
  | _ :: rest => closesBlock rest

/-- What the next character belongs to. -/
inductive Context where
  | code
  | string
  | escape
  | line
  | block
  deriving DecidableEq

/-- The text without its comments. -/
def dropComments : Context → List Char → List Char
  | _, [] => []
  | .escape, c :: rest => c :: dropComments .string rest
  | .string, c :: rest =>
    c :: dropComments (if c = '\\' then .escape else if c = '"' then .code else .string) rest
  | .line, c :: rest =>
    if c = '\n' then c :: dropComments .code rest else dropComments .line rest
  | .block, '*' :: '/' :: rest => dropComments .code rest
  | .block, _ :: rest => dropComments .block rest
  | .code, '/' :: '/' :: rest => dropComments .line rest
  | .code, '/' :: '*' :: rest =>
    if closesBlock rest then dropComments .block rest
    else '/' :: '*' :: dropComments .code rest
  | .code, c :: rest =>
    c :: dropComments (if c = '"' ∧ closesString rest then .string else .code) rest

/-- Outside of strings everything but a quote and a slash is kept. -/
theorem dropComments_keep {w : List Char} (plain : ∀ c ∈ w, c ≠ '"' ∧ c ≠ '/')
    (s : List Char) : dropComments .code (w ++ s) = w ++ dropComments .code s := by
  induction w with
  | nil => rfl
  | cons c rest ih =>
      obtain ⟨⟨noQuote, noSlash⟩, later⟩ := List.forall_mem_cons.mp plain
      rw [List.cons_append, List.cons_append, ← ih later]
      rw [dropComments] <;> simp [noQuote, noSlash]

/-- Whether the next character that is not blank closes a list or an object. -/
def closesNext (s : List Char) : Bool :=
  match s.dropWhile Text.isBlank with
  | c :: _ => c == '\x7d' || c == ']'
  | [] => false

/-- The text without the commas before closing brackets. -/
def dropTrailingCommas : List Char → List Char
  | [] => []
  | c :: rest =>
    if c = ',' ∧ closesNext rest then dropTrailingCommas rest else c :: dropTrailingCommas rest

/-- The JSON text of a settings file. -/
def plainJson (text : String) : String :=
  String.ofList (dropTrailingCommas (dropComments .code text.toList))

end ClientForge.Json
