/-
# ClientForge.Client.Request -- request functions

Every operation has one request function.  It takes the surface of its contract, builds a
form if the body is one, and ends in a call: to axios, or to the mutator if there is one.

The call to axios passes path and body as axios wants them for the verb, and one object with
everything else; the order of its entries is: the preset options, those of the caller, the
query parameters, the headers, and for a delete request the body.  The call to a mutator
passes one object that describes the request, and the request options behind it if the
mutator takes a second argument.
-/
import ClientForge.Client.Call
import ClientForge.Client.Form
import ClientForge.Imports.Dependency
import ClientForge.Profile

namespace ClientForge

set_option autoImplicit false

/-- A request function. -/
structure RequestFunction where
  name : String
  surface : Surface
  result : Option String
  form : Option FormBody
  call : Call

/-- What axios exports. -/
def axiosDependencies : List Dependency := [
  ⟨"axios", [
    { name := "axios", isDefault := true, isValue := true, synthetic := true },
    { name := "AxiosRequestConfig" },
    { name := "AxiosResponse" },
    { name := "AxiosError" }]⟩]

/-- A parameter list with a line for every parameter. -/
def signatureText (surface : Surface) : String :=
  let parts := surface.parts
  if parts.isEmpty then "()"
  else "(\n" ++ String.join (parts.map fun part => "  " ++ part ++ ",\n") ++ ")"

namespace RequestFunction

/-- The first line, or lines, up to the opening brace. -/
def head (f : RequestFunction) : String :=
  "export const " ++ f.name ++ " = " ++ signatureText f.surface ++
    (match f.result with
      | some type => ": Promise<AxiosResponse<" ++ type ++ ">>"
      | none => "") ++ " => \x7b"

def render (f : RequestFunction) : String :=
  String.intercalate "\n"
    (f.head :: ((f.form.map FormBody.lines).getD [] ++
      ["  return " ++ f.call.render ++ ";", "\x7d;"]))

end RequestFunction

namespace Contract

/-- The variable of the first slot with a role. -/
def slotName? (c : Contract) (role : Role) : Option String :=
  (c.surface.first? role).map Slot.name

/-- The form that the body is sent as. -/
def form? (c : Contract) : Attempt (Option FormBody) :=
  match c.slotName? .body, FormBody.kind? c.body with
  | some source, some kind => (FormBody.ofSchema kind source c.body.schema).map some
  | _, _ => .ok none

/-- The variable that is sent as the body. -/
def dataName? (c : Contract) : Option String :=
  match c.slotName? .body, FormBody.kind? c.body with
  | some _, some kind => some kind.name
  | some source, none => some source
  | none, _ => none

/-- The content type that a mutator is told. -/
def contentType? (c : Contract) : Attempt (Option String) :=
  if !c.body.defined then .ok none
  else if c.body.isFormData then .ok (some formDataType)
  else if c.body.isFormUrlEncoded then .ok (some formUrlEncodedType)
  else
    match c.body.mediaType with
    | none => .ok none
    | some (.str mediaType) =>
      .ok (if Config.occursIn "json".toList mediaType.toList then some mediaType else none)
    | some a => if a.truthy then illShaped else .ok none

/-- The headers of a call to a mutator, if it has any. -/
def headerEntries (contentType name : Option String) : List CallEntry :=
  if contentType.isNone && name.isNone then [] else [.headers contentType name]

/-- The request options that a mutator is passed. -/
def mutatorOptions (c : Contract) (m : Mutator) : List CallArgument :=
  let presets := CallEntry.presets c.override.presetOptions
  if !c.override.takesRequestOptions then []
  else if m.hasSecondArg then
    if presets.isEmpty then [.named "options"]
    else [.object (presets ++ [.spread "options"])]
  else if presets.isEmpty then []
  else [.object presets]

/-- The call to a mutator. -/
def mutatorCall (c : Contract) (m : Mutator) : Attempt Call := do
  let contentType ← c.contentType?
  let entries := [.url c.route, .method c.verb] ++
    headerEntries contentType (c.slotName? .header) ++
    (c.dataName?.map .data).toList ++ ((c.slotName? .query).map .shorthand).toList
  return ⟨m.name ++ "<" ++ c.answer.success ++ ">", .object entries :: c.mutatorOptions m, true⟩

/-- Whether axios takes the body of a verb as an argument of its own. -/
def sendsBodyAsArgument (verb : Verb) : Bool :=
  verb == .post || verb == .put || verb == .patch

/-- A group of parameters in a call to axios. -/
def groupEntry (takesOptions : Bool) (key name : String) : CallEntry :=
  if takesOptions then .merged key name else .shorthand name

/-- The entries of the object that configures a call to axios. -/
def axiosEntries (c : Contract) : List CallEntry :=
  let takesOptions := c.override.takesRequestOptions
  CallEntry.presets c.override.presetOptions ++
    (if takesOptions then [.spread "options"] else []) ++
    ((c.slotName? .query).map (groupEntry takesOptions "params")).toList ++
    ((c.slotName? .header).map (groupEntry takesOptions "headers")).toList ++
    (if c.verb = .delete then (c.dataName?.map .data).toList else [])

/-- The object that configures a call to axios, if there is anything to configure. -/
def axiosConfig : List CallEntry → List CallArgument
  | [] => []
  | [.spread name] => [.named name]
  | entries => [.object entries]

/-- The body in a call to axios; where it is missing, something has to hold its place. -/
def axiosData (c : Contract) (config : List CallArgument) : List CallArgument :=
  if sendsBodyAsArgument c.verb then
    match c.dataName? with
    | some name => [.named name]
    | none => if config.isEmpty then [] else [.undefined]
  else []

/-- The call to axios. -/
def axiosCall (c : Contract) (profile : Profile) : Call :=
  let config := axiosConfig c.axiosEntries
  ⟨(if profile.syntheticDefaults then "axios." else "axios.default.") ++ c.verb.name,
    [.route c.route] ++ c.axiosData config ++ config, false⟩

/-- The request function of an operation. -/
def request (c : Contract) (profile : Profile) : Attempt RequestFunction := do
  let form ← c.form?
  match c.mutator with
  | some m => return ⟨c.name, c.surface, none, form, ← c.mutatorCall m⟩
  | none => return ⟨c.name, c.surface, some c.answer.success, form, c.axiosCall profile⟩

/-- The type of errors that callers see. -/
def errorType (c : Contract) : String :=
  match c.mutator with
  | none => "AxiosError<" ++ c.answer.error ++ ">"
  | some m => if m.hasErrorType then "ErrorType<" ++ c.answer.error ++ ">" else c.answer.error

/-- What the code of an operation refers to in the module of its mutator. -/
def mutatorImports (c : Contract) (withErrorType : Bool) : List ImportRef :=
  match c.mutator with
  | none => []
  | some m =>
    let type (name : String) : ImportRef := { name, specifier := some m.path }
    { type m.name with isDefault := m.isDefault, isValue := true } ::
      ((if withErrorType && m.hasErrorType then [type "ErrorType"] else []) ++
        (match m.bodyTypeName with
          | some name => if name != "" && c.body.defined then [type name] else []
          | none => []))

end Contract

/-- The helper type that the options of a mutator are written with. -/
def secondParameterHelper : String :=
  "// eslint-disable-next-line\n" ++
    "type SecondParameter<T extends (...args: any) => any> = T extends (\n" ++
    "  config: any,\n  args: infer P,\n) => any\n  ? P\n  : never;"

end ClientForge
