/-
# ClientForge.Contract.Payload -- bodies and answers with a type

A request body has the type of its first media type, and is sent as a form if that media
type is one and the settings allow it.  The answer of an operation has two types: that of
the first successful response that declares a schema, and the union of those of all other
responses that do.
-/
import ClientForge.Config.Override
import ClientForge.Operation
import ClientForge.Types.Schema

namespace ClientForge

set_option autoImplicit false

/-- The media type of forms with files. -/
def formDataType : String := "multipart/form-data"

/-- The media type of forms in the style of an address. -/
def formUrlEncodedType : String := "application/x-www-form-urlencoded"

/-- A request body with its type, which is empty where there is no body. -/
structure Body where
  type : ResolvedType
  mediaType : Option Scalar
  isFormData : Bool := false
  isFormUrlEncoded : Bool := false
  schema : Option Value := none

namespace Body

def none : Body := ⟨⟨"", []⟩, .none, false, false, .none⟩

def defined (b : Body) : Bool := b.type.text != ""

/-- Whether a media type is the given one, parameters behind it aside. -/
def hasType (start : String) : Scalar → Attempt Bool
  | .str s => .ok (start.toList.isPrefixOf s.toList)
  | _ => illShaped

/-- The body that is sent with the first media type. -/
def normalize (o : Override) (body : Option RequestBody) : Attempt Body :=
  match body with
  | .none => .ok .none
  | some body =>
    match body.content with
    | [] => .ok .none
    | media :: _ => do
      let type ← Schema.resolve o.useDates (media.schema.getD .null) false
      let isFormData ← if o.formData then hasType formDataType media.contentType else pure false
      let isFormUrlEncoded ←
        if o.formUrlEncoded then hasType formUrlEncodedType media.contentType else pure false
      return ⟨type, some media.contentType, isFormData, isFormUrlEncoded, media.schema⟩

end Body

/-- The types of the answers of an operation. -/
structure Answer where
  success : String
  error : String
  imports : List ImportRef
  deriving DecidableEq

namespace Answer

def isSuccess (status : String) : Bool := status.toList.head? == some '2'

/-- The first schema under the media types of a response. -/
def firstSchema? : List MediaType → Option Value
  | [] => none
  | media :: rest =>
    match media.schema with
    | some schema => some schema
    | none => firstSchema? rest

/-- The responses that declare a schema, each with its type. -/
def typed (useDates : Bool) : List Response → Attempt (List (String × ResolvedType))
  | [] => .ok []
  | response :: rest =>
    match firstSchema? response.content with
    | none => typed useDates rest
    | some schema => do
      let type ← Schema.resolve useDates schema false
      let types ← typed useDates rest
      return (response.status, type) :: types

/-- The successful response that counts. -/
def firstSuccess? (types : List (String × ResolvedType)) : Option ResolvedType :=
  (types.find? fun entry => isSuccess entry.1).map Prod.snd

/-- The types of all other responses. -/
def failures (types : List (String × ResolvedType)) : List ResolvedType :=
  (types.filter fun entry => !isSuccess entry.1).map Prod.snd

/-- An empty text says nothing about a type. -/
def orUnknown (text : String) : String := if text = "" then unknownText else text

/-- The answer of an operation. -/
def normalize (o : Override) (responses : List Response) : Attempt Answer := do
  let types ← typed o.useDates responses
  let success := firstSuccess? types
  let errors := ((failures types).map ResolvedType.text).eraseDups
  return {
    success := orUnknown ((success.map ResolvedType.text).getD "")
    error := if errors.isEmpty then unknownText else String.intercalate " | " errors
    imports := distinctRefs
      ((success.map ResolvedType.imports).getD [] ++
        (failures types).flatMap ResolvedType.imports) }

end Answer

end ClientForge
