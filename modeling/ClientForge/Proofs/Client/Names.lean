/-
# ClientForge.Proofs.Client.Names -- what the names of an operation are made of

The name of an operation is joined from its id or, where it has none, from verb and path.  The
hook, the key function and the types of the operation are named by joining that name once more.
Where it is made of ASCII this second joining makes no difference: all of them have the names
that the id itself would give them (`Contract.NamedAfter`).
-/
import ClientForge.Proofs.Client.Exports

namespace ClientForge

set_option autoImplicit false

/-- All names of an operation are made of this text. -/
structure Contract.NamedAfter (c : Contract) (source : String) : Prop where
  request : c.name = Naming.camel source
  hook : c.hookName = Naming.camel ("use-" ++ source)
  key : c.keyFunctionName = Naming.camel ("get-" ++ source ++ "-key")
  result : ∀ kind, (c.hook kind).resultName = Naming.pascal source ++ kind.typeEnding ++ "Result"
  error : ∀ kind, (c.hook kind).errorName = Naming.pascal source ++ kind.typeEnding ++ "Error"
  declarations : ∀ d ∈ c.declarations, ∃ ending ∈ ["Params", "Headers", "Body"],
    d.name = Naming.pascal source ++ ending

namespace Operation

variable {op : Operation} {o : Override} {c : Contract}

/-- The types of an operation are named by the name of its type and one of three endings. -/
theorem declaration_ending (run : (op.contract o).result = .ok c) {d : Declaration}
    (member : d ∈ c.declarations) : ∃ ending ∈ ["Params", "Headers", "Body"],
      d.name = Naming.pascal c.name ++ ending := by
  obtain ⟨_, _, _, _, _, built⟩ := contract_eq_ok run
  rcases built.declaration_cases member with ⟨name, -⟩ | ⟨name, -⟩ | name
  · exact ⟨"Params", by decide, name⟩
  · exact ⟨"Headers", by decide, name⟩
  · exact ⟨"Body", by decide, name⟩

/-- What an operation is named after is enough to name all that is made of it. -/
theorem contract_namedAfter (run : (op.contract o).result = .ok c) {path : String}
    (isPath : op.path = .str path) (ascii : Naming.IsAscii (op.source path).toList) :
    c.NamedAfter (op.source path) := by
  have name : c.name = Naming.camel (op.source path) := by
    obtain ⟨path', isPath', name⟩ := contract_name run
    obtain rfl : path = path' := Scalar.str.inj (isPath.symm.trans isPath')
    exact name
  have type : Naming.pascal c.name = Naming.pascal (op.source path) := by
    rw [name, Naming.pascal_camel ascii]
  constructor
  case request => exact name
  case hook =>
    show Naming.camel ("use-" ++ c.name) = _
    rw [Naming.camel_use, Naming.camel_use, type]
  case key =>
    show Naming.camel ("get-" ++ c.name ++ "-key") = _
    rw [Naming.camel_get_key, Naming.camel_get_key, type]
  case result =>
    intro kind
    show Naming.pascal c.name ++ kind.typeEnding ++ "Result" = _
    rw [type]
  case error =>
    intro kind
    show Naming.pascal c.name ++ kind.typeEnding ++ "Error" = _
    rw [type]
  case declarations =>
    intro d member
    rw [← type]
    exact declaration_ending run member

end Operation

/-- **The algebra of names.**  A run of separators between two names keeps them apart and is
nothing else; a name of ASCII is joined once and for all; and so what is named after an operation
is named after its id. -/
theorem names_compose :
    (∀ a run b : String, run ≠ "" → (∀ c ∈ run.toList, Text.isAlphanumeric c = false) →
      Naming.pascal (a ++ run ++ b) = Naming.pascal a ++ Naming.pascal b) ∧
    (∀ name : String, Naming.IsAscii name.toList → Naming.JoinedOnce name) ∧
    ∀ (op : Operation) (o : Override) (c : Contract) (id : String),
      (op.contract o).result = .ok c → op.id = some (.str id) → id ≠ "" →
      Naming.IsAscii id.toList → c.NamedAfter id := by
  refine ⟨fun a run b some separators => Naming.pascal_append_run a b some separators,
    fun name ascii => Naming.joinedOnce ascii, fun op o c id run own some ascii => ?_⟩
  obtain ⟨path, isPath, -⟩ := Operation.contract_name run
  have source : op.source path = id := by
    unfold Operation.source
    rw [own]
    exact if_neg some
  rw [← source] at ascii ⊢
  exact Operation.contract_namedAfter run isPath ascii

/-- A search of pets, with a query. -/
def searchPets : Value :=
  Contract.documentOf [("/pets", "get", [
    ("operationId", .str "2nd_search-pets"),
    ("parameters", .list [Contract.textParameter "page" "query"]),
    ("responses", .object [])])]

theorem names_compose_searchPets :
    Naming.pascal ("list" ++ "-_ " ++ "pets") = Naming.pascal "list" ++ Naming.pascal "pets" ∧
      Naming.JoinedOnce "2nd_search-pets" ∧
      ∃ api op c, Api.ofDocument searchPets = .ok api ∧ api.operations = [op] ∧
        op.id = some (.str "2nd_search-pets") ∧ (op.contract {}).result = .ok c ∧
        c.name = "_2ndSearchPets" ∧ c.hookName = "use2ndSearchPets" ∧
        c.declarations.map Declaration.name = ["2ndSearchPetsParams"] ∧
        c.NamedAfter "2nd_search-pets" := by
  obtain ⟨separate, joined, named⟩ := names_compose
  have runs : ∃ api op c, Api.ofDocument searchPets = .ok api ∧ api.operations = [op] ∧
      op.id = some (.str "2nd_search-pets") ∧ (op.contract {}).result = .ok c ∧
      c.name = "_2ndSearchPets" ∧ c.hookName = "use2ndSearchPets" ∧
      c.declarations.map Declaration.name = ["2ndSearchPetsParams"] :=
    ⟨_, _, _, rfl, rfl, rfl, rfl, rfl, rfl, rfl⟩
  obtain ⟨api, op, c, read, one, own, built, name, hook, types⟩ := runs
  exact ⟨separate "list" "-_ " "pets" (by decide) (by decide), joined "2nd_search-pets" (by decide),
    api, op, c, read, one, own, built, name, hook, types,
    named op {} c _ built own (by decide) (by decide)⟩

end ClientForge
