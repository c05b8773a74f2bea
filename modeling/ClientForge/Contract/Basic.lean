/-
# ClientForge.Contract.Basic -- all that is needed to write one operation

A contract holds the names, the types and the parameter list of one operation.  Its surface
lists, in this order: a slot for every path parameter, one for all query parameters, one for
all headers, one for the body, and one for the request options.  Cookies are part of the
contract and of no signature.

The query parameters and the headers are grouped in a type of their own each, and so is a
body whose type is no model; these types are the declarations of the contract and belong
into the models module.
-/
import ClientForge.Contract.Parameter
import ClientForge.Contract.Payload
import ClientForge.Contract.Surface
import ClientForge.Config.Reader
import ClientForge.Traced

namespace ClientForge

set_option autoImplicit false

/-- A type that a contract adds to the models. -/
structure Declaration where
  name : String
  definition : String
  imports : List ImportRef
  deriving DecidableEq

def Declaration.render (d : Declaration) : String :=
  "export type " ++ d.name ++ " = " ++ d.definition ++ ";"

/-- The parameters of an operation by location. -/
structure ParameterGroups where
  path : List Parameter := []
  query : List Parameter := []
  header : List Parameter := []
  cookie : List Parameter := []

namespace ParameterGroups

/-- The parameters of one location. -/
def inLocation (g : ParameterGroups) : Location → List Parameter
  | .path => g.path
  | .query => g.query
  | .header => g.header
  | .cookie => g.cookie

/-- Add a parameter behind the others of its location. -/
def add (g : ParameterGroups) (p : Parameter) : Location → ParameterGroups
  | .path => { g with path := g.path ++ [p] }
  | .query => { g with query := g.query ++ [p] }
  | .header => { g with header := g.header ++ [p] }
  | .cookie => { g with cookie := g.cookie ++ [p] }

end ParameterGroups

/-- One operation, ready to be written. -/
structure Contract where
  name : String
  path : String
  route : String
  verb : Verb
  parameters : ParameterGroups
  surface : Surface
  body : Body
  answer : Answer
  override : Override
  declarations : List Declaration := []
  mutator : Option Mutator := none
  bodyTypeName : Option String := none

namespace Contract

/-- The route as messages show it. -/
def location (c : Contract) : String := c.verb.upperName ++ " " ++ c.path

/-- The models that the type of the body needs, unless the body has a declaration. -/
def bodyImports (c : Contract) : List ImportRef :=
  if c.body.defined && c.bodyTypeName == some c.body.type.text then
    sortedByName c.body.type.imports
  else []

/-- The models that the code of the operation refers to. -/
def imports (c : Contract) : List ImportRef :=
  distinctRefs
    (c.parameters.path.flatMap (·.type.imports) ++
      c.declarations.map (fun d => .model d.name) ++
      c.bodyImports ++ sortedByName c.answer.imports)

end Contract

/-- The type of request options where axios sends the requests. -/
def transportOptionsType : String := "AxiosRequestConfig"

/-- The type of request options that a mutator takes. -/
def secondParameterType (mutator : Mutator) : String :=
  "SecondParameter<typeof " ++ mutator.name ++ ">"

namespace Contract

/-- A name that has to be a text. -/
def textOf : Value → Attempt String
  | .atom (.str s) => .ok s
  | _ => illShaped

/-- One parameter more, checked and with its type. -/
def groupOne (o : Override) (g : ParameterGroups) (p : RawParameter) :
    Attempt ParameterGroups := do
  match p.location with
  | .atom location =>
    match (match location with | .str name => Location.ofName? name | _ => none) with
    | none => reject (.parameterLocation p.name.shown p.location.shown)
    | some place =>
      if !p.name.truthy then reject (.parameterWithoutName place.name)
      else return g.add (← p.normalize o.useDates) place
  | _ => illShaped

def group (o : Override) (parameters : List RawParameter) : Attempt ParameterGroups :=
  parameters.foldlM (groupOne o) {}

/-- The slot of a path parameter. -/
def pathSlot (p : Parameter) : Attempt Slot := do
  return ⟨.path, Naming.camel (← textOf p.name), p.type.text, p.optional, none⟩

/-- A parameter as a property of the type that groups it. -/
def property (p : Parameter) : Attempt String := do
  return Naming.propertyKey (← textOf p.name) ++ (if p.optional then "?" else "") ++ ": " ++
    p.type.text

/-- The type that groups parameters. -/
def groupDeclaration (typeName : String) (members : List Parameter) : Attempt Declaration := do
  let properties ← members.mapM property
  return ⟨typeName, "\x7b " ++ String.intercalate "; " properties ++ " \x7d",
    distinctRefs (members.flatMap (·.type.imports))⟩

/-- The declaration and the slot of a group of parameters, if it has any. -/
def groupPart (typeName slotName : String) (role : Role) (members : List Parameter) :
    Attempt (List Declaration × List Slot) :=
  if members.isEmpty then .ok ([], [])
  else do
    let declaration ← groupDeclaration typeName members
    return ([declaration],
      [⟨role, slotName, declaration.name, members.all Parameter.optional, none⟩])

/-- The declaration, the slot and the type name of the body, if there is one. -/
def bodyPart (operationName : String) (o : Override) (body : Body) :
    List Declaration × List Slot × Option String :=
  if !body.defined then ([], [], none)
  else
    let isModel := body.type.imports.contains (.model body.type.text)
    let typeName :=
      if isModel then body.type.text else Naming.pascal operationName ++ "Body"
    (if isModel then [] else [⟨typeName, body.type.text, body.type.imports⟩],
      [⟨.body, Naming.camel typeName, typeName, false, o.mutator.bind Mutator.bodyTypeName⟩],
      some typeName)

/-- The slot for request options, if callers may pass any. -/
def optionsSlot (o : Override) : List Slot :=
  if o.takesRequestOptions then
    match o.mutator with
    | none => [⟨.options, "options", transportOptionsType, true, none⟩]
    | some m =>
      if m.hasSecondArg then [⟨.options, "options", secondParameterType m, true, none⟩] else []
  else []

/-- The contract of an operation, before its name is known to errors. -/
def build (name : String) (op : Operation) (o : Override) : Traced Contract := do
  let parameters ← group o op.parameters
  if !parameters.cookie.isEmpty then
    Traced.record .debug .contract
      (name ++ ": cookie parameters are not part of the generated signature")
  let body ← Body.normalize o op.requestBody
  let answer ← Answer.normalize o op.responses
  let pathSlots ← liftM (parameters.path.mapM pathSlot : Attempt (List Slot))
  let (queryTypes, querySlots) ←
    groupPart (Naming.pascal name ++ "Params") "params" .query parameters.query
  let (headerTypes, headerSlots) ←
    groupPart (Naming.pascal name ++ "Headers") "headers" .header parameters.header
  let (bodyTypes, bodySlots, bodyTypeName) := bodyPart name o body
  Traced.record .debug .contract ("Built contract for " ++ name ++ " (" ++ op.route ++ ")")
  let path ← textOf (.atom op.path)
  return {
    name, path
    route := Naming.templateRoute path
    verb := op.verb
    parameters
    surface := ⟨pathSlots ++ querySlots ++ headerSlots ++ bodySlots ++ optionsSlot o⟩
    body, answer
    override := o
    declarations := queryTypes ++ headerTypes ++ bodyTypes
    mutator := o.mutator
    bodyTypeName }

end Contract

/-- A failure that names the operation it belongs to. -/
def Failure.placedAt (operation route : String) : Failure → Failure
  | .reported report => .reported (report.placedAt operation route)
  | failure => failure

/-- The name of the request function of an operation. -/
def Operation.functionName (op : Operation) : Attempt String :=
  match op.id with
  | none => .ok (Naming.operationName none op.verb.name op.path.shown)
  | some id =>
    if !id.truthy then .ok (Naming.operationName none op.verb.name op.path.shown)
    else return Naming.operationName (some (← Contract.textOf id)) op.verb.name op.path.shown

/-- The contract of an operation; errors say which operation they belong to. -/
def Operation.contract (op : Operation) (o : Override) : Traced Contract := do
  let name ← op.functionName
  match ← (Contract.build name op o).attempt with
  | .ok contract => return contract
  | .error failure => Traced.fail (failure.placedAt name op.route)

end ClientForge
