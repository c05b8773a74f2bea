/-
# ClientForge.Proofs.Models.Identifiers -- which names of the generated code are identifiers

The functions of an operation are named as variables are, and whatever is joined to the name of
the operation to call them leaves a name that can be joined as one, so all of them are called by
identifiers (`Contract.CalledByIdentifiers`).

What the models module declares is named as types are: a component schema by its own name, the
types of an operation by the name of the operation and an ending.  Such a name is an identifier
exactly if what it is made of has no digit in front of its letters (`names_identifier_iff`).
Nothing guards types against that digit, so the module may declare a type `404`
(`names_not_identifiers`).
-/
import ClientForge.Proofs.Client.Names
import ClientForge.Proofs.Models.File
import ClientForge.Proofs.Naming.Identifiers

namespace ClientForge

set_option autoImplicit false

open Naming (IsIdentifier IsNameable DigitFirst pascal camel)

/-- What the code for a document is named after: its component schemas, and its operations, by
their ids or by verb and path. -/
inductive Api.Names (api : Api) : String → Prop
  | component {name : String} {schema : Value} : (.str name, schema) ∈ api.schemas →
      api.Names name
  | operation {op : Operation} {path : String} : op ∈ api.operations → op.path = .str path →
      api.Names (op.source path)

/-- All functions of an operation are called by identifiers. -/
structure Contract.CalledByIdentifiers (c : Contract) : Prop where
  request : IsIdentifier c.name
  key : IsIdentifier c.keyFunctionName
  hook : IsIdentifier c.hookName

/-! ## Functions -/

/-- What is joined to the source of a name leaves a source of names, so the guard against digits
holds for each of the three functions by itself. -/
theorem Contract.NamedAfter.calledByIdentifiers {c : Contract} {source : String}
    (named : c.NamedAfter source) (nameable : IsNameable source) : c.CalledByIdentifiers := by
  constructor
  case request =>
    rw [named.request]
    exact Naming.camel_isIdentifier nameable
  case key =>
    rw [named.key]
    apply Naming.camel_isIdentifier
    exact nameable.between (by decide) (by decide)
  case hook =>
    have between : IsNameable ("use-" ++ source ++ "") :=
      nameable.between (by decide) (by decide)
    rw [named.hook]
    rw [String.append_empty] at between
    exact Naming.camel_isIdentifier between

/-! ## Types -/

/-- The name of a type, with what it is made of: a source of the document and an ending. -/
def Api.NamesType (api : Api) (name source : String) : Prop :=
  api.Names source ∧ ∃ ending ∈ ["", "Params", "Headers", "Body"], name = pascal source ++ ending

/-- The name of a type is an identifier exactly if no digit comes first in its source. -/
theorem Api.NamesType.isIdentifier_iff {api : Api} {name source : String}
    (nameable : ∀ source, api.Names source → IsNameable source)
    (named : api.NamesType name source) : IsIdentifier name ↔ ¬ DigitFirst source := by
  obtain ⟨there, ending, known, rfl⟩ := named
  have plain : ∀ ending ∈ ["", "Params", "Headers", "Body"],
      ∀ c ∈ ending.toList, Naming.isIdentifierChar c = true := by decide
  exact Naming.pascal_isIdentifier_iff (nameable source there) (plain ending known)

namespace ModelsFile

variable {api : Api} {contracts : List Contract} {useDates : Bool} {file : ModelsFile}

/-- Every type that the models module declares is named after something in the document. -/
theorem build_names (nameable : ∀ source, api.Names source → IsNameable source)
    (built : ∀ c ∈ contracts, ∃ op ∈ api.operations, ∃ o, (op.contract o).result = .ok c)
    (run : (build useDates api.schemas contracts).result = .ok file) :
    ∀ name ∈ file.names, ∃ source, api.NamesType name source := by
  have ofSchema : ∀ entry ∈ api.schemas, ∀ model, IsFor useDates entry model →
      ∃ source, api.NamesType model.name source := by
    rintro ⟨key, schema⟩ member model ⟨name, rfl, described⟩
    refine ⟨name, .component member, "", by decide, ?_⟩
    rw [(Model.ofSchema_eq_ok described).1, String.append_empty]
  have ofContract : ∀ c ∈ contracts, ∀ d ∈ c.declarations,
      ∃ source, api.NamesType d.name source := by
    intro c member d declared
    obtain ⟨op, among, o, contract⟩ := built c member
    obtain ⟨path, isPath, -⟩ := Operation.contract_name contract
    have there : api.Names (op.source path) := .operation among isPath
    have named := Operation.contract_namedAfter contract isPath (nameable _ there).ascii
    obtain ⟨ending, known, name⟩ := named.declarations d declared
    exact ⟨op.source path, there, ending, List.mem_cons_of_mem _ known, name⟩
  obtain ⟨grown, -⟩ := build_grows (P := fun model => ∃ source, api.NamesType model.name source)
    ofSchema ofContract run
  intro name member
  obtain ⟨model, listed, rfl⟩ := List.mem_map.mp member
  rcases grown.new model listed with none | named
  · cases none
  · exact named

/-- **Which names are identifiers.**  Where all that a document names is named by ASCII with a
letter or a digit, the functions of every operation are called by identifiers; and the name of a
declared type is an identifier exactly if a digit does not come first in what it is made of. -/
theorem names_identifier_iff (nameable : ∀ source, api.Names source → IsNameable source)
    (built : ∀ c ∈ contracts, ∃ op ∈ api.operations, ∃ o, (op.contract o).result = .ok c)
    (run : (build useDates api.schemas contracts).result = .ok file) :
    (∀ c ∈ contracts, c.CalledByIdentifiers) ∧
      ∀ name ∈ file.names, ∃ source, api.NamesType name source ∧
        (IsIdentifier name ↔ ¬ DigitFirst source) := by
  constructor
  · intro c member
    obtain ⟨op, among, o, contract⟩ := built c member
    obtain ⟨path, isPath, -⟩ := Operation.contract_name contract
    have source := nameable _ (.operation among isPath)
    exact (Operation.contract_namedAfter contract isPath source.ascii).calledByIdentifiers source
  · intro name member
    obtain ⟨source, named⟩ := build_names nameable built run name member
    exact ⟨source, named, named.isIdentifier_iff nameable⟩

/-- A document with one component schema, and with one operation that takes a query. -/
def codesDocument (component id : String) : Value := .object [
  ("openapi", .str "3.0.0"),
  ("paths", .object [("/codes", .object [("get", .object [
    ("operationId", .str id), ("parameters", .list [Contract.textParameter "page" "query"]),
    ("responses", .object [])])])]),
  ("components", .object [("schemas", .object [
    (component, .object [("type", .str "string")])])])]

/-- Such a document names its component and its operation, and nothing else. -/
theorem codesDocument_names {component id : String} (own : id ≠ "") {api : Api}
    (read : Api.ofDocument (codesDocument component id) = .ok api) {source : String}
    (names : api.Names source) : source = component ∨ source = id := by
  have parts : ∃ schema op, Api.ofDocument (codesDocument component id) =
      .ok ⟨[(.str component, schema)], [op]⟩ ∧ op.id = some (.str id) := ⟨_, _, rfl, rfl⟩
  obtain ⟨schema, op, same, called⟩ := parts
  obtain rfl := Except.ok.inj (read.symm.trans same)
  cases names with
  | component member =>
      cases List.mem_singleton.mp member
      exact Or.inl rfl
  | operation member isPath =>
      rw [List.mem_singleton.mp member, Operation.source, called]
      exact Or.inr (if_neg own)

theorem names_identifier_iff_codes :
    ∃ api op c file, Api.ofDocument (codesDocument "status-code" "2fa-codes") = .ok api ∧
      api.operations = [op] ∧ (op.contract {}).result = .ok c ∧
      (build false api.schemas [c]).result = .ok file ∧
      c.name = "_2faCodes" ∧ c.keyFunctionName = "get2faCodesKey" ∧ c.hookName = "use2faCodes" ∧
      file.names = ["StatusCode", "2faCodesParams"] ∧ c.CalledByIdentifiers ∧
      ∀ name ∈ file.names, ∃ source, api.NamesType name source ∧
        (IsIdentifier name ↔ ¬ DigitFirst source) := by
  have runs : ∃ api op c file,
      Api.ofDocument (codesDocument "status-code" "2fa-codes") = .ok api ∧
      api.operations = [op] ∧ (op.contract {}).result = .ok c ∧
      (build false api.schemas [c]).result = .ok file ∧
      c.name = "_2faCodes" ∧ c.keyFunctionName = "get2faCodesKey" ∧ c.hookName = "use2faCodes" ∧
      file.names = ["StatusCode", "2faCodesParams"] :=
    ⟨_, _, _, _, rfl, rfl, rfl, rfl, rfl, rfl, rfl, rfl⟩
  obtain ⟨api, op, c, file, read, one, built, run, request, key, hook, names⟩ := runs
  have nameable : ∀ source, api.Names source → IsNameable source := by
    intro source there
    rcases codesDocument_names (by decide) read there with rfl | rfl
    · exact ⟨by decide, 's', by decide, by decide⟩
    · exact ⟨by decide, '2', by decide, by decide⟩
  have contracts : ∀ other ∈ [c], ∃ op ∈ api.operations, ∃ o,
      (op.contract o).result = .ok other := by
    intro other member
    rw [List.mem_singleton.mp member]
    exact ⟨op, one ▸ List.mem_singleton_self op, {}, built⟩
  obtain ⟨functions, types⟩ := names_identifier_iff nameable contracts run
  exact ⟨api, op, c, file, read, one, built, run, request, key, hook, names,
    functions c (List.mem_singleton_self c), types⟩

/-- A digit in front is guarded against in the names of functions alone: a component schema and
the query of an operation declare types that are called by no identifiers. -/
theorem names_not_identifiers :
    ∃ api op c file, Api.ofDocument (codesDocument "404" "2fa-codes") = .ok api ∧
      (∀ source, api.Names source → IsNameable source) ∧
      api.operations = [op] ∧ (op.contract {}).result = .ok c ∧
      (build false api.schemas [c]).result = .ok file ∧
      file.names = ["404", "2faCodesParams"] ∧ ∀ name ∈ file.names, ¬ IsIdentifier name := by
  have runs : ∃ api op c file, Api.ofDocument (codesDocument "404" "2fa-codes") = .ok api ∧
      api.operations = [op] ∧ (op.contract {}).result = .ok c ∧
      (build false api.schemas [c]).result = .ok file ∧
      file.names = ["404", "2faCodesParams"] := ⟨_, _, _, _, rfl, rfl, rfl, rfl, rfl⟩
  obtain ⟨api, op, c, file, read, one, built, run, names⟩ := runs
  refine ⟨api, op, c, file, read, fun source there => ?_, one, built, run, names, ?_⟩
  · rcases codesDocument_names (by decide) read there with rfl | rfl
    · exact ⟨by decide, '4', by decide, by decide⟩
    · exact ⟨by decide, '2', by decide, by decide⟩
  · rw [names]
    decide

end ModelsFile

end ClientForge
