/-
# ClientForge.Client.Hook -- hooks around request functions

An operation that reads or changes data has a hook beside its request function, and a
function for the key under which the answer is cached.  The key is made of the route and of
the query parameters; the hook makes it of the arguments that it has under the same names.

A hook takes the surface of its contract, without the request options, and its own options
at the end.  The hook of a change leaves the body to the caller's trigger, which passes it as
`arg`.  The hook's options are those of the hook itself or, where the request function takes
request options, an object with both.

The request function is called with an argument for every slot of its surface, in order
(`callArguments`).
-/
import ClientForge.Client.Request
import ClientForge.Text.CaseMap

namespace ClientForge

set_option autoImplicit false

/-- Whether an operation reads or changes data. -/
inductive VerbKind where
  | query
  | mutation
  deriving DecidableEq

namespace VerbKind

def name : VerbKind → String
  | .query => "query"
  | .mutation => "mutation"

/-- The kind of a verb, if it is of one. -/
def ofVerb? : Verb → Option VerbKind
  | .get => some .query
  | .post | .put | .patch | .delete => some .mutation
  | .head | .options | .trace => none

/-- The kind of a verb that is written in any case. -/
def ofText (verb : String) : Attempt VerbKind :=
  let verb := Text.lower verb
  match (Verb.ofName? verb).bind ofVerb? with
  | some kind => .ok kind
  | none => reject (.verbKind verb)

/-- How the types of a hook end. -/
def typeEnding : VerbKind → String
  | .query => "Query"
  | .mutation => "Mutation"

/-- The type of the hook's own settings. -/
def configurationType : VerbKind → String
  | .query => "SWRConfiguration"
  | .mutation => "SWRMutationConfiguration"

/-- The function that the hook is built on. -/
def hookFunction : VerbKind → String
  | .query => "useSWR"
  | .mutation => "useSWRMutation"

end VerbKind

/-- The options that a hook hands on to the request function. -/
inductive TransportOptions where
  | axios
  | mutator (m : Mutator)
  deriving DecidableEq

namespace TransportOptions

/-- The member of the hook's options that holds them. -/
def member : TransportOptions → String
  | .axios => "axios"
  | .mutator _ => "request"

/-- The variable that holds them inside the hook. -/
def name : TransportOptions → String
  | .axios => "axiosOptions"
  | .mutator _ => "requestOptions"

def type : TransportOptions → String
  | .axios => transportOptionsType
  | .mutator m => secondParameterType m

end TransportOptions

/-- The function for the cache key of an operation. -/
structure KeyFunction where
  name : String
  surface : Surface
  route : String
  query : Option String

namespace KeyFunction

/-- The elements of a key: the route, and the query parameters where there are any. -/
def elements (k : KeyFunction) : List String :=
  templateLiteral k.route ::
    (k.query.map fun query => "...(" ++ query ++ " ? [" ++ query ++ "] : [])").toList

def render (k : KeyFunction) : String :=
  "export const " ++ k.name ++ " = (" ++ k.surface.render ++ ") => [" ++
    String.intercalate ", " k.elements ++ "] as const;"

/-- The call with the arguments that the function names. -/
def call (k : KeyFunction) : Call := ⟨k.name, k.surface.names.map .named, false⟩

end KeyFunction

/-- A hook around a request function. -/
structure Hook where
  kind : VerbKind
  name : String
  request : String
  typeStart : String
  errorType : String
  surface : Surface
  takesRequestOptions : Bool
  transport : Option TransportOptions
  key : KeyFunction
  guards : List String
  argumentType : Option String
  call : Call
  settings : CallArgument

namespace Hook

/-- The type of the answer of the request function. -/
def answerType (h : Hook) : String := "Awaited<ReturnType<typeof " ++ h.request ++ ">>"

/-- The type of the hook's own options. -/
def optionsType (h : Hook) : String :=
  h.kind.configurationType ++ "<" ++ h.answerType ++
    ", TError> & \x7b swrKey?: Key, enabled?: boolean \x7d"

/-- The last parameter of the hook. -/
def optionsParameter (h : Hook) : String :=
  if h.takesRequestOptions then
    "options?: " ++ bracedList (("swr?: " ++ h.optionsType) ::
      (h.transport.map fun t => t.member ++ "?: " ++ t.type).toList)
  else "swrOptions?: " ++ h.optionsType

/-- The statement that takes the options apart. -/
def optionsLines (h : Hook) : List String :=
  if h.takesRequestOptions then
    ["  const " ++ bracedList ("swr: swrOptions" ::
        (h.transport.map fun t => t.member ++ ": " ++ t.name).toList) ++
      " = options ?? \x7b\x7d;", ""]
  else []

/-- When a request may be sent: the caller does not forbid it, and what it needs is there. -/
def enabledText (h : Hook) : String :=
  "swrOptions?.enabled !== false" ++
    if h.guards.isEmpty then "" else " && !!(" ++ String.intercalate " && " h.guards ++ ")"

/-- The parameters of the function that sends the request. -/
def senderParameters (h : Hook) : String :=
  match h.argumentType with
  | some type => "_key: Key, \x7b arg \x7d: \x7b arg: " ++ type ++ " \x7d"
  | none => ""

/-- The types that the underlying function is applied to. -/
def typeArguments (h : Hook) : List String :=
  ["Awaited<ReturnType<typeof swrFn>>", "TError"] ++
    match h.kind with
    | .query => []
    | .mutation => "Key" :: h.argumentType.toList

/-- The call to the underlying function. -/
def underlying (h : Hook) : Call :=
  ⟨h.kind.hookFunction ++ "<" ++ String.intercalate ", " h.typeArguments ++ ">",
    [.named "swrKey", .named "swrFn", h.settings], false⟩

/-- The exported types of answers and errors. -/
def typeLines (h : Hook) : List String :=
  let start := "export type " ++ h.typeStart ++ h.kind.typeEnding
  [start ++ "Result = NonNullable<" ++ h.answerType ++ ">;",
    start ++ "Error = " ++ h.errorType ++ ";"]

def bodyLines (h : Hook) : List String :=
  h.optionsLines ++ [
    "  const isEnabled = " ++ h.enabledText ++ ";",
    "  const swrKey = swrOptions?.swrKey ?? (() => (isEnabled ? " ++ h.key.call.render ++
      " : null));",
    "  const swrFn = (" ++ h.senderParameters ++ ") => " ++ h.call.render ++ ";",
    "",
    "  const " ++ h.kind.name ++ " = " ++ h.underlying.render ++ ";",
    "",
    "  return \x7b",
    "    swrKey,",
    "    ..." ++ h.kind.name ++ ",",
    "  \x7d;"]

def render (h : Hook) : String :=
  String.intercalate "\n"
    (h.typeLines ++ ["", "export const " ++ h.name ++ " = <TError = " ++ h.errorType ++ ">("] ++
      (h.surface.parts ++ [h.optionsParameter]).map (fun part => "  " ++ part ++ ",") ++
      [") => \x7b"] ++ h.bodyLines ++ ["\x7d;"])

end Hook

namespace Contract

def keyFunctionName (c : Contract) : String := Naming.camel ("get-" ++ c.name ++ "-key")

def hookName (c : Contract) : String := Naming.camel ("use-" ++ c.name)

/-- The options that a hook hands on, where the request function takes any. -/
def transportOptions? (c : Contract) : Option TransportOptions :=
  if c.override.takesRequestOptions then
    match c.mutator with
    | none => some .axios
    | some m => if m.hasSecondArg then some (.mutator m) else none
  else none

def keyFunction (c : Contract) : KeyFunction :=
  let surface := c.surface.only [.path, .query]
  ⟨c.keyFunctionName, surface, c.route, (surface.first? .query).map Slot.name⟩

/-- What has to be there before a request is sent: the path, and a query that is required. -/
def guards (c : Contract) : List String :=
  (c.surface.only [.path]).names ++
    match c.surface.first? .query with
    | some slot => if slot.optional then [] else [slot.name]
    | none => []

/-- What a hook passes for a slot other than the request options. -/
def callArgument (kind : VerbKind) (slot : Slot) : String :=
  if kind = .mutation ∧ slot.role = .body then "arg" else slot.name

/-- The arguments of the request function inside a hook. -/
def callArguments (c : Contract) (kind : VerbKind) : List String :=
  (c.surface.without [.options]).slots.map (callArgument kind) ++
    (c.transportOptions?.map TransportOptions.name).toList

/-- The settings of the underlying function: the caller's, in front of them the defaults. -/
def hookSettings (c : Contract) : CallArgument :=
  match c.override.swrOptions.getD [] with
  | [] => .named "swrOptions"
  | defaults => .object (CallEntry.presets defaults ++ [.spread "swrOptions"])

/-- The hook of an operation of a kind. -/
def hook (c : Contract) (kind : VerbKind) : Hook where
  kind := kind
  name := c.hookName
  request := c.name
  typeStart := Naming.pascal c.name
  errorType := c.errorType
  surface := c.surface.without (.options :: if kind = .mutation then [.body] else [])
  takesRequestOptions := c.override.takesRequestOptions
  transport := c.transportOptions?
  key := c.keyFunction
  guards := c.guards
  argumentType :=
    if kind = .mutation then (c.surface.first? .body).map Slot.renderedType else none
  call := ⟨c.name, (c.callArguments kind).map .named, false⟩
  settings := c.hookSettings

end Contract

end ClientForge
