/-
# ClientForge.Proofs.Operation.Schemas -- the schemas of a document

Reading a document takes its schemas out of it and leaves them as they are: each component
schema, and each schema of a parameter, of a body or of a response is a part of the
document (`ofDocument_schemas`).
-/
import ClientForge.Operation
import ClientForge.Proofs.Data.Attempt
import ClientForge.Proofs.Data.Part
import ClientForge.Reference.Pointer

namespace ClientForge

set_option autoImplicit false

/-- The schemas under media types. -/
def MediaType.schemas (content : List MediaType) : List Value := content.filterMap MediaType.schema

def RawParameter.schemas (p : RawParameter) : List Value :=
  p.schema.toList ++ MediaType.schemas p.content

/-- The schemas that an operation mentions. -/
def Operation.schemas (op : Operation) : List Value :=
  op.parameters.flatMap RawParameter.schemas ++
    op.requestBody.toList.flatMap (fun body => MediaType.schemas body.content) ++
    op.responses.flatMap fun response => MediaType.schemas response.content

namespace Api

/-! ## Parts that are looked up -/

theorem asMap_eq_ok {v : Value} {entries : Entries} (run : asMap v = .ok entries) :
    v = .map entries := by
  cases v <;> cases run
  rfl

theorem mapAt_eq_ok {key : String} {entries inner : Entries}
    (run : mapAt key entries = .ok inner) :
    Entries.get? key entries = none ∧ inner = [] ∨
      Entries.get? key entries = some (.map inner) := by
  unfold mapAt at run
  split at run
  · rename_i absent
    cases run
    exact Or.inl ⟨absent, rfl⟩
  · rename_i v found
    exact Or.inr (asMap_eq_ok run ▸ found)

section Failures

open Attempt (FailsOnly)

variable {reasons : Failure → Prop}

theorem asMap_failsOnly (shape : reasons .illShaped) (v : Value) :
    FailsOnly reasons (asMap v) := by
  cases v with
  | atom a => exact .error shape
  | list items => exact .error shape
  | map entries => exact .ok entries

theorem mapAt_failsOnly (shape : reasons .illShaped) (key : String) (entries : Entries) :
    FailsOnly reasons (mapAt key entries) := by
  unfold mapAt
  split
  · exact .ok []
  · exact asMap_failsOnly shape _

end Failures

theorem mapAt_part {key : String} {entries inner : Entries} (run : mapAt key entries = .ok inner)
    {entry : Scalar × Value} (member : entry ∈ inner) : entry.2.PartOf (.map entries) := by
  rcases mapAt_eq_ok run with ⟨-, rfl⟩ | found
  · cases member
  · exact Value.PartOf.trans (.entry member .refl) (.of_get? found)

theorem valueAt_part {key : String} {entries : Entries} {v : Value}
    (found : valueAt key entries = some v) : v.PartOf (.map entries) := by
  obtain ⟨w, here, present⟩ := Option.bind_eq_some_iff.mp found
  unfold Value.present? at present
  split at present
  · cases present
  · cases present
    exact .of_get? here

theorem mediaTypes_part {entries : Entries} {content : List MediaType}
    (run : mediaTypes entries = .ok content) {schema : Value}
    (member : schema ∈ MediaType.schemas content) : schema.PartOf (.map entries) := by
  obtain ⟨media, among, has⟩ := List.mem_filterMap.mp member
  unfold mediaTypes at run
  obtain ⟨written, here, run⟩ := Attempt.bind_eq_ok run
  obtain ⟨entry, there, read⟩ := exists_of_mem_right (Attempt.mapM_eq_ok run) among
  obtain ⟨fields, shape, read⟩ := Attempt.bind_eq_ok read
  cases read
  have whole : (Value.map fields).PartOf (.map entries) :=
    asMap_eq_ok shape ▸ mapAt_part here there
  exact (valueAt_part has).trans whole

/-! ## Parameters -/

/-- A part of an item of a list; the list itself is none. -/
def InItem (u v : Value) : Prop :=
  ∃ items item, v = .list items ∧ item ∈ items ∧ u.PartOf item

/-- A list that may be missing has no items of its own. -/
theorem InItem.part {key : String} {entries : Entries} {u : Value}
    (inside : InItem u ((Entries.get? key entries).getD (.list []))) : u.PartOf (.map entries) := by
  obtain ⟨items, item, same, member, part⟩ := inside
  cases found : Entries.get? key entries with
  | none =>
      rw [found] at same
      cases same
      cases member
  | some v =>
      rw [found] at same
      cases same
      exact Value.PartOf.trans (.item member part) (.of_get? found)

theorem parameterOf_part {entries : Entries} {p : RawParameter}
    (run : parameterOf entries = .ok p) {schema : Value} (member : schema ∈ p.schemas) :
    schema.PartOf (.map entries) := by
  unfold parameterOf at run
  obtain ⟨content, read, run⟩ := Attempt.bind_eq_ok run
  cases run
  rcases List.mem_append.mp member with direct | under
  · exact valueAt_part (Option.mem_toList.mp direct)
  · exact mediaTypes_part read under

/-- Where a parameter is put does not change what it is. -/
theorem mem_putParameter {key : Option (Scalar × Scalar)} {entries : Entries}
    {done : List (Option (Scalar × Scalar) × Entries)} {entry : Option (Scalar × Scalar) × Entries}
    (member : entry ∈ putParameter key entries done) : entry.2 = entries ∨ entry ∈ done := by
  induction done with
  | nil =>
      rw [putParameter, List.mem_singleton] at member
      exact Or.inl (congrArg Prod.snd member)
  | cons first rest ih =>
      obtain ⟨k, old⟩ := first
      rw [putParameter] at member
      split at member
      · rcases List.mem_cons.mp member with rfl | later
        · exact Or.inl rfl
        · exact Or.inr (List.mem_cons_of_mem _ later)
      · rcases List.mem_cons.mp member with rfl | later
        · exact Or.inr List.mem_cons_self
        · exact (ih later).imp_right (List.mem_cons_of_mem _)

theorem mem_putParameters {keyed done : List (Option (Scalar × Scalar) × Entries)}
    {entry : Option (Scalar × Scalar) × Entries}
    (member : entry ∈ keyed.foldl (fun done (key, entries) => putParameter key entries done) done) :
    (∃ source ∈ keyed, entry.2 = source.2) ∨ entry ∈ done := by
  induction keyed generalizing done with
  | nil => exact Or.inr member
  | cons first rest ih =>
      rcases ih member with ⟨source, later, same⟩ | put
      · exact Or.inl ⟨source, List.mem_cons_of_mem _ later, same⟩
      · rcases mem_putParameter put with same | old
        · exact Or.inl ⟨first, List.mem_cons_self, same⟩
        · exact Or.inr old

theorem appendLists_part {common specific : Value} {declared : List Value}
    (run : appendLists common specific = .ok declared) {v : Value} (member : v ∈ declared) :
    InItem v common ∨ InItem v specific := by
  unfold appendLists at run
  split at run
  · rename_i a b
    cases run
    rcases List.mem_append.mp member with first | second
    · exact Or.inl ⟨a, v, rfl, first, .refl⟩
    · exact Or.inr ⟨b, v, rfl, second, .refl⟩
  · cases run
    cases member
  · cases run

theorem mergeParameters_part {common specific : Value} {parameters : List RawParameter}
    (run : mergeParameters common specific = .ok parameters) {p : RawParameter}
    (among : p ∈ parameters) {schema : Value} (member : schema ∈ p.schemas) :
    InItem schema common ∨ InItem schema specific := by
  unfold mergeParameters at run
  obtain ⟨declared, lists, run⟩ := Attempt.bind_eq_ok run
  obtain ⟨keyed, keys, run⟩ := Attempt.bind_eq_ok run
  have known : ∀ entry ∈ keyed, InItem (.map entry.2) common ∨ InItem (.map entry.2) specific := by
    intro entry member
    obtain ⟨v, there, read⟩ := exists_of_mem_right (Attempt.mapM_eq_ok keys) member
    obtain ⟨entries, shape, read⟩ := Attempt.bind_eq_ok read
    obtain ⟨key, -, read⟩ := Attempt.bind_eq_ok read
    cases read
    exact asMap_eq_ok shape ▸ appendLists_part lists there
  obtain ⟨entry, there, read⟩ := exists_of_mem_right (Attempt.mapM_eq_ok run) among
  have part := parameterOf_part read member
  rcases mem_putParameters there with ⟨source, origin, same⟩ | none
  · have deeper : ∀ v, InItem (.map entry.2) v → InItem schema v :=
      fun v ⟨items, item, list, inside, outer⟩ => ⟨items, item, list, inside, part.trans outer⟩
    exact (same ▸ known source origin).imp (deeper common) (deeper specific)
  · cases none

/-! ## Operations -/

theorem requestBodyOf_part {entries : Entries} {body : Option RequestBody}
    (run : requestBodyOf entries = .ok body) {schema : Value}
    (member : schema ∈ body.toList.flatMap fun body => MediaType.schemas body.content) :
    schema.PartOf (.map entries) := by
  obtain ⟨request, among, member⟩ := List.mem_flatMap.mp member
  unfold requestBodyOf at run
  split at run
  · cases run
    cases among
  · rename_i v found
    split at run
    · obtain ⟨fields, shape, run⟩ := Attempt.bind_eq_ok run
      obtain ⟨content, read, run⟩ := Attempt.bind_eq_ok run
      cases run
      cases List.mem_singleton.mp among
      have whole : (Value.map fields).PartOf (.map entries) := asMap_eq_ok shape ▸ .of_get? found
      exact (mediaTypes_part read member).trans whole
    · cases run
      cases among

theorem responsesOf_part {entries : Entries} {responses : List Response}
    (run : responsesOf entries = .ok responses) {schema : Value}
    (member : schema ∈ responses.flatMap fun response => MediaType.schemas response.content) :
    schema.PartOf (.map entries) := by
  obtain ⟨response, among, member⟩ := List.mem_flatMap.mp member
  unfold responsesOf at run
  obtain ⟨written, here, run⟩ := Attempt.bind_eq_ok run
  obtain ⟨entry, there, read⟩ := exists_of_mem_right (Attempt.mapM_eq_ok run) among
  obtain ⟨fields, shape, read⟩ := Attempt.bind_eq_ok read
  obtain ⟨content, media, read⟩ := Attempt.bind_eq_ok read
  cases read
  have whole : (Value.map fields).PartOf (.map entries) :=
    asMap_eq_ok shape ▸ mapAt_part here there
  exact (mediaTypes_part media member).trans whole

theorem operationOf_part {path : Scalar} {common v : Value} {verb : Verb} {op : Operation}
    (run : operationOf path common verb v = .ok op) {schema : Value}
    (member : schema ∈ op.schemas) : InItem schema common ∨ schema.PartOf v := by
  unfold operationOf at run
  obtain ⟨entries, shape, run⟩ := Attempt.bind_eq_ok run
  obtain ⟨parameters, merged, run⟩ := Attempt.bind_eq_ok run
  obtain ⟨body, request, run⟩ := Attempt.bind_eq_ok run
  obtain ⟨responses, answers, run⟩ := Attempt.bind_eq_ok run
  obtain ⟨extensions, -, run⟩ := Attempt.bind_eq_ok run
  cases run
  cases asMap_eq_ok shape
  rcases List.mem_append.mp member with first | inResponses
  · rcases List.mem_append.mp first with inParameters | inBody
    · obtain ⟨p, among, member⟩ := List.mem_flatMap.mp inParameters
      exact (mergeParameters_part merged among member).imp_right InItem.part
    · exact Or.inr (requestBodyOf_part request inBody)
  · exact Or.inr (responsesOf_part answers inResponses)

theorem operationsOf_part {path : Scalar} {item : Value} {operations : List Operation}
    (run : operationsOf path item = .ok operations) {op : Operation} (among : op ∈ operations)
    {schema : Value} (member : schema ∈ op.schemas) : schema.PartOf item := by
  unfold operationsOf at run
  obtain ⟨entries, shape, run⟩ := Attempt.bind_eq_ok run
  obtain ⟨found, each, run⟩ := Attempt.bind_eq_ok run
  cases run
  cases asMap_eq_ok shape
  obtain ⟨_, listed, rfl⟩ := List.mem_filterMap.mp among
  obtain ⟨verb, -, read⟩ := exists_of_mem_right (Attempt.mapM_eq_ok each) listed
  split at read
  · rename_i v here
    split at read
    · obtain ⟨other, read, same⟩ := Attempt.map_eq_ok read
      cases same
      rcases operationOf_part read member with common | own
      · exact common.part
      · exact own.trans (.of_get? here)
    · cases read
  · cases read

/-- **Schemas are parts of their document**, the component schemas and those of all
operations. -/
theorem ofDocument_schemas {document : Value} {api : Api} (run : ofDocument document = .ok api) :
    (∀ entry ∈ api.schemas, entry.2.PartOf document) ∧
      ∀ op ∈ api.operations, ∀ schema ∈ op.schemas, schema.PartOf document := by
  unfold ofDocument at run
  obtain ⟨entries, shape, run⟩ := Attempt.bind_eq_ok run
  obtain ⟨components, inComponents, run⟩ := Attempt.bind_eq_ok run
  obtain ⟨schemas, inSchemas, run⟩ := Attempt.bind_eq_ok run
  obtain ⟨paths, inPaths, run⟩ := Attempt.bind_eq_ok run
  obtain ⟨operations, each, run⟩ := Attempt.bind_eq_ok run
  cases run
  cases asMap_eq_ok shape
  refine ⟨fun entry member => ?_, fun op among schema member => ?_⟩
  · rcases mapAt_eq_ok inComponents with ⟨-, rfl⟩ | found
    · cases inSchemas
      cases member
    · exact (mapAt_part inSchemas member).trans (.of_get? found)
  · obtain ⟨group, listed, among⟩ := List.mem_flatten.mp among
    obtain ⟨item, there, read⟩ := exists_of_mem_right (Attempt.mapM_eq_ok each) listed
    exact (operationsOf_part read among member).trans (mapAt_part inPaths there)

/-- What a pointer to a component schema finds is among the schemas. -/
theorem ofDocument_follow {document part : Value} {api : Api}
    (run : ofDocument document = .ok api) {name : String}
    (found : Pointer.follow document ["components", "schemas", name] = some part) :
    (.str name, part) ∈ api.schemas := by
  unfold ofDocument at run
  obtain ⟨entries, shape, run⟩ := Attempt.bind_eq_ok run
  obtain ⟨components, inComponents, run⟩ := Attempt.bind_eq_ok run
  obtain ⟨schemas, inSchemas, run⟩ := Attempt.bind_eq_ok run
  obtain ⟨paths, -, run⟩ := Attempt.bind_eq_ok run
  obtain ⟨operations, -, run⟩ := Attempt.bind_eq_ok run
  cases run
  cases asMap_eq_ok shape
  have step : ∀ {key : String} {rest : List String} {outer inner : Entries},
      mapAt key outer = .ok inner → Pointer.follow (.map outer) (key :: rest) = some part →
        Pointer.follow (.map inner) rest = some part := by
    intro key rest outer inner read found
    rcases mapAt_eq_ok read with ⟨absent, -⟩ | here
    · rw [Pointer.follow, absent] at found
      cases found
    · rwa [Pointer.follow, here] at found
  have last := step inSchemas (step inComponents found)
  rw [Pointer.follow] at last
  split at last
  · rename_i schema here
    obtain rfl : schema = part := by cases schema <;> exact Option.some.inj last
    exact Entries.mem_of_get? here
  · cases last

end Api

end ClientForge
