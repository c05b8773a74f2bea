/-
# ClientForge.Client.Axios -- request functions alone

This flavor writes the request function of every operation, and nothing around it.
-/
import ClientForge.Client.Flavor

namespace ClientForge.Flavor

set_option autoImplicit false

namespace Axios

def header (flags : HeaderFlags) : String :=
  if flags.takesSecondArg then secondParameterHelper ++ "\n" else ""

def client (profile : Profile) (c : Contract) : Attempt ClientCode := do
  let request ← c.request profile
  return ⟨request.render ++ "\n", c.imports ++ c.mutatorImports false⟩

end Axios

/-- The flavor of plain request functions. -/
def axios (profile : Profile) : Flavor where
  name := "axios"
  profile := profile
  dependencies := fun allMutated => if allMutated then [] else axiosDependencies
  header := Axios.header
  client := fun c => .ofAttempt (Axios.client profile c)

end ClientForge.Flavor
