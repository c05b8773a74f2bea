/-
# ClientForge.Config.Override -- settings of the generated code

An override decides, for one operation, how requests are sent and what their types look
like.  Every field is set on its own: by the extensions of the operation, else by the
settings for the operation, else by the global settings, else by its default.
-/
import ClientForge.Data.Value

namespace ClientForge

set_option autoImplicit false

/-- A function of the caller's that sends requests in place of axios. -/
structure Mutator where
  name : String
  path : String
  isDefault : Bool := false
  hasSecondArg : Bool := false
  hasErrorType : Bool := false
  bodyTypeName : Option String := none
  deriving DecidableEq

/-- Whether callers may pass request options, or which options every request has. -/
inductive RequestOptions where
  | allowed (flag : Bool)
  | preset (options : Entries)

/-- The settings for one operation. -/
structure Override where
  requestOptions : RequestOptions := .allowed true
  formData : Bool := true
  formUrlEncoded : Bool := true
  useDates : Bool := false
  mutator : Option Mutator := none
  swrOptions : Option Entries := none

namespace Override

/-- Callers may pass request options. -/
def takesRequestOptions (o : Override) : Bool :=
  match o.requestOptions with
  | .allowed flag => flag
  | .preset _ => true

/-- The options that every request has. -/
def presetOptions (o : Override) : Entries :=
  match o.requestOptions with
  | .allowed _ => []
  | .preset options => options

end Override

/-- The global settings, and those for single operations, which are applied on top. -/
structure Config where
  override : Override := {}
  operations : List (String × Value) := []

/-- A mutator for all operations. -/
def Config.hasGlobalMutator (c : Config) : Bool := c.override.mutator.isSome

end ClientForge
