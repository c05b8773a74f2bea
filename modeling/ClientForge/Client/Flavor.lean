/-
# ClientForge.Client.Flavor -- what a flavor of clients has to provide

A flavor writes the code for one client library.  It names the packages that its code may
use, writes the helper types at the head of a file, and writes the code of one operation.
The code of an operation depends on its contract and on the profile alone, so operations may
be written in any order.
-/
import ClientForge.Client.Request

namespace ClientForge

set_option autoImplicit false

/-- What decides which helper types a file needs. -/
structure HeaderFlags where
  hasAwaited : Bool
  takesSecondArg : Bool
  deriving DecidableEq

/-- The code of one operation and the symbols that it refers to on purpose. -/
structure ClientCode where
  implementation : String
  imports : List ImportRef
  deriving DecidableEq

/-- A flavor for a project; the first argument of `dependencies` says that no request is
sent by axios. -/
structure Flavor where
  name : String
  profile : Profile
  dependencies : Bool → List Dependency
  header : HeaderFlags → String
  client : Contract → Traced ClientCode

/-- The operation passes request options to its mutator. -/
def Contract.passesSecondArg (c : Contract) : Bool :=
  (c.mutator.any Mutator.hasSecondArg) && c.override.takesRequestOptions

namespace Flavor

/-- The flags for a file with these operations. -/
def flags (f : Flavor) (contracts : List Contract) : HeaderFlags :=
  ⟨f.profile.hasAwaited, contracts.any Contract.passesSecondArg⟩

end Flavor

end ClientForge
