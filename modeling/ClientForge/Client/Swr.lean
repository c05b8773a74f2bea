/-
# ClientForge.Client.Swr -- request functions with hooks

This flavor writes the request function of every operation and, where the verb reads or
changes data, the key function and the hook behind it.  Other verbs have no hook, which is
left as a record in the log.
-/
import ClientForge.Client.Flavor
import ClientForge.Client.Hook

namespace ClientForge.Flavor

set_option autoImplicit false

namespace Swr

/-- What the packages of the hooks export. -/
def hookDependencies : List Dependency := [
  ⟨"swr", [
    { name := "useSWR", isDefault := true, isValue := true },
    { name := "SWRConfiguration" },
    { name := "Key" }]⟩,
  ⟨"swr/mutation", [
    { name := "useSWRMutation", isDefault := true, isValue := true },
    { name := "SWRMutationConfiguration" }]⟩]

/-- The type `Awaited` for compilers that lack it. -/
def awaitedHelper : String :=
  "type AwaitedInput<T> = PromiseLike<T> | T;\n\n" ++
    "type Awaited<O> = O extends AwaitedInput<infer T> ? T : never;"

def header (flags : HeaderFlags) : String :=
  (if flags.hasAwaited then "" else awaitedHelper ++ "\n\n") ++
    (if flags.takesSecondArg then secondParameterHelper ++ "\n\n" else "")

/-- The key function and the hook of an operation, as text. -/
def hookText (c : Contract) (kind : VerbKind) : String :=
  c.keyFunction.render ++ "\n\n" ++ (c.hook kind).render ++ "\n"

/-- The record that an operation has no hook. -/
def noHook (c : Contract) : String :=
  c.name ++ ": no hook rendered: " ++ (Cause.verbKind c.verb.name).message

def client (profile : Profile) (c : Contract) : Traced ClientCode := do
  let request ← c.request profile
  match VerbKind.ofVerb? c.verb with
  | none =>
    Traced.record .debug .swr (noHook c)
    return ⟨request.render ++ "\n", c.imports ++ c.mutatorImports false⟩
  | some kind =>
    return ⟨request.render ++ "\n\n" ++ hookText c kind, c.imports ++ c.mutatorImports true⟩

end Swr

/-- The flavor of hooks. -/
def swr (profile : Profile) : Flavor where
  name := "swr"
  profile := profile
  dependencies := fun allMutated =>
    (if allMutated then [] else axiosDependencies) ++ Swr.hookDependencies
  header := Swr.header
  client := Swr.client profile

end ClientForge.Flavor
