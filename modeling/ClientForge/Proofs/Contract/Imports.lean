/-
# ClientForge.Proofs.Contract.Imports -- what a contract refers to

All types in a contract are read from schemas of its operation, so the models that they
need are those that these schemas name (`ReadFrom`).  A contract refers to nothing else,
apart from the types that it declares itself (`Sourced.imports`).
-/
import ClientForge.Contract.Basic
import ClientForge.Proofs.Operation.Schemas

namespace ClientForge

set_option autoImplicit false

/-! ## Collections of references -/

theorem mem_insertAll (set : ImportSet) (refs : List ImportRef) (ref : ImportRef) :
    ref ∈ (set.insertAll refs).refs ↔ ref ∈ set.refs ∨ ref ∈ refs := by
  unfold ImportSet.insertAll
  induction refs generalizing set with
  | nil => simp
  | cons first rest ih =>
      rw [List.foldl_cons, ih, ImportSet.mem_insert, List.mem_cons]
      tauto

@[simp] theorem mem_distinctRefs (refs : List ImportRef) (ref : ImportRef) :
    ref ∈ distinctRefs refs ↔ ref ∈ refs := by
  rw [distinctRefs, mem_insertAll]
  simp

@[simp] theorem mem_sortedByName (refs : List ImportRef) (ref : ImportRef) :
    ref ∈ sortedByName refs ↔ ref ∈ refs := List.mem_mergeSort

theorem exists_import {e : TypeExpr} {ref : ImportRef} (member : ref ∈ e.imports) :
    ∃ name ∈ e.names, ref = .model (Naming.pascal name) := by
  obtain ⟨name, inside, rfl⟩ := List.mem_map.mp ((mem_distinctRefs _ _).mp member)
  exact ⟨name, inside, rfl⟩

/-- A reference that the type of one of the schemas needs. -/
def ReadFrom (schemas : List Value) (ref : ImportRef) : Prop :=
  ∃ schema ∈ schemas, ∃ useDates e, Schema.read useDates false schema = .ok e ∧ ref ∈ e.imports

theorem ReadFrom.mono {schemas others : List Value} {ref : ImportRef}
    (read : ReadFrom schemas ref) (more : ∀ schema ∈ schemas, schema ∈ others) :
    ReadFrom others ref := by
  obtain ⟨schema, member, type⟩ := read
  exact ⟨schema, more schema member, type⟩

/-- Types need models, and nothing else. -/
theorem ReadFrom.exists_model {schemas : List Value} {ref : ImportRef}
    (read : ReadFrom schemas ref) : ∃ name, ref = .model name := by
  obtain ⟨schema, -, useDates, e, -, member⟩ := read
  obtain ⟨name, -, same⟩ := exists_import member
  exact ⟨_, same⟩

theorem resolve_readFrom {useDates : Bool} {schema : Value} {type : ResolvedType}
    (run : Schema.resolve useDates schema false = .ok type) {ref : ImportRef}
    (member : ref ∈ type.imports) : ReadFrom [schema] ref := by
  obtain ⟨e, read, rfl⟩ := Attempt.map_eq_ok run
  exact ⟨schema, List.mem_singleton_self schema, useDates, e, read, member⟩

/-! ## Parameters, bodies and answers -/

theorem contentSource?_schema {content : List MediaType} {source : SchemaSource}
    (found : RawParameter.contentSource? content = some source) :
    source.schema ∈ MediaType.schemas content := by
  induction content with
  | nil => cases found
  | cons media rest ih =>
      rw [RawParameter.contentSource?] at found
      rw [MediaType.schemas, List.filterMap_cons]
      split at found
      · rename_i schema here
        cases found
        rw [here]
        exact List.mem_cons_self
      · rename_i none
        rw [none]
        exact ih found

theorem normalize_readFrom {useDates : Bool} {p : RawParameter} {q : Parameter}
    (run : p.normalize useDates = .ok q) {ref : ImportRef} (member : ref ∈ q.type.imports) :
    ReadFrom p.schemas ref := by
  unfold RawParameter.normalize at run
  obtain ⟨source, found, run⟩ := Attempt.bind_eq_ok run
  obtain ⟨type, read, run⟩ := Attempt.bind_eq_ok run
  cases run
  have known : source.schema ∈ p.schemas := by
    unfold RawParameter.source at found
    unfold RawParameter.schemas
    split at found
    · rename_i schema direct
      cases found
      rw [direct]
      exact List.mem_append_left _ (List.mem_singleton_self schema)
    · split at found
      · rename_i under
        cases found
        exact List.mem_append_right _ (contentSource?_schema under)
      · cases found
  exact (resolve_readFrom read member).mono fun schema only => List.mem_singleton.mp only ▸ known

theorem mem_add (g : ParameterGroups) (p q : Parameter) (place location : Location) :
    q ∈ (g.add p place).inLocation location ↔
      q ∈ g.inLocation location ∨ location = place ∧ q = p := by
  cases place <;> cases location <;> simp [ParameterGroups.add, ParameterGroups.inLocation]

/-- Whatever holds of every parameter that can be read holds of all that are grouped. -/
theorem group_keeps {o : Override} {parameters : List RawParameter} {g : ParameterGroups}
    (run : Contract.group o parameters = .ok g) {P : Parameter → Prop}
    (each : ∀ p ∈ parameters, ∀ q, p.normalize o.useDates = .ok q → P q) :
    ∀ location, ∀ q ∈ g.inLocation location, P q := by
  unfold Contract.group at run
  refine Attempt.foldlM_keeps (P := fun g => ∀ location, ∀ q ∈ g.inLocation location, P q) ?_ run ?_
  · intro p member g g' step kept
    unfold Contract.groupOne at step
    split at step
    · split at step
      · cases step
      · rename_i place _
        split at step
        · cases step
        · obtain ⟨q, read, step⟩ := Attempt.bind_eq_ok step
          cases step
          intro location other among
          rcases (mem_add g q other place location).mp among with old | ⟨-, rfl⟩
          · exact kept location other old
          · exact each p member other read
    · cases step
  · intro location q member
    cases location <;> cases member

theorem Body.normalize_readFrom {o : Override} {request : Option RequestBody} {body : Body}
    (run : Body.normalize o request = .ok body) {ref : ImportRef}
    (member : ref ∈ body.type.imports) :
    ReadFrom (request.toList.flatMap fun body => MediaType.schemas body.content) ref := by
  unfold Body.normalize at run
  split at run
  · cases run
    cases member
  · rename_i request
    split at run
    · cases run
      cases member
    · rename_i media rest content
      obtain ⟨type, read, run⟩ := Attempt.bind_eq_ok run
      obtain ⟨isFormData, run⟩ := Attempt.choice_eq_ok run
      obtain ⟨isFormUrlEncoded, run⟩ := Attempt.choice_eq_ok run
      cases run
      cases found : media.schema with
      | none =>
          rw [found] at read
          cases read
          cases member
      | some schema =>
          rw [found] at read
          refine (resolve_readFrom read member).mono fun other only => ?_
          rw [List.mem_singleton.mp only]
          refine List.mem_flatMap.mpr ⟨request, List.mem_singleton_self request, ?_⟩
          rw [content]
          exact List.mem_filterMap.mpr ⟨media, List.mem_cons_self, found⟩

theorem firstSchema?_mem {content : List MediaType} {schema : Value}
    (found : Answer.firstSchema? content = some schema) : schema ∈ MediaType.schemas content := by
  induction content with
  | nil => cases found
  | cons media rest ih =>
      rw [Answer.firstSchema?] at found
      rw [MediaType.schemas, List.filterMap_cons]
      split at found
      · rename_i schema here
        cases found
        rw [here]
        exact List.mem_cons_self
      · rename_i none
        rw [none]
        exact ih found

theorem typed_readFrom {useDates : Bool} {responses : List Response}
    {types : List (String × ResolvedType)} (run : Answer.typed useDates responses = .ok types)
    {entry : String × ResolvedType} (among : entry ∈ types) {ref : ImportRef}
    (member : ref ∈ entry.2.imports) :
    ReadFrom (responses.flatMap fun response => MediaType.schemas response.content) ref := by
  induction responses generalizing types with
  | nil =>
      cases run
      cases among
  | cons response rest ih =>
      have later : ∀ {types}, Answer.typed useDates rest = .ok types → entry ∈ types →
          ReadFrom ((response :: rest).flatMap fun response =>
            MediaType.schemas response.content) ref := by
        intro types run among
        exact (ih run among).mono fun schema here => List.mem_append_right _ here
      rw [Answer.typed] at run
      split at run
      · exact later run among
      · rename_i schema found
        obtain ⟨type, read, run⟩ := Attempt.bind_eq_ok run
        obtain ⟨others, next, run⟩ := Attempt.bind_eq_ok run
        cases run
        rcases List.mem_cons.mp among with rfl | among
        · refine (resolve_readFrom read member).mono fun other only => ?_
          rw [List.mem_singleton.mp only]
          exact List.mem_append_left _ (firstSchema?_mem found)
        · exact later next among

theorem Answer.normalize_readFrom {o : Override} {responses : List Response} {answer : Answer}
    (run : Answer.normalize o responses = .ok answer) {ref : ImportRef}
    (member : ref ∈ answer.imports) :
    ReadFrom (responses.flatMap fun response => MediaType.schemas response.content) ref := by
  unfold Answer.normalize at run
  obtain ⟨types, read, run⟩ := Attempt.bind_eq_ok run
  cases run
  rw [mem_distinctRefs, List.mem_append] at member
  rcases member with success | failure
  · cases found : Answer.firstSuccess? types with
    | none =>
        rw [found] at success
        cases success
    | some type =>
        rw [found] at success
        obtain ⟨entry, here, rfl⟩ := Option.map_eq_some_iff.mp found
        exact typed_readFrom read (List.mem_of_find?_eq_some here) success
  · obtain ⟨type, listed, inside⟩ := List.mem_flatMap.mp failure
    obtain ⟨entry, here, rfl⟩ := List.mem_map.mp listed
    exact typed_readFrom read (List.mem_filter.mp here).1 inside

/-! ## Contracts -/

theorem groupPart_imports {typeName slotName : String} {role : Role} {members : List Parameter}
    {declarations : List Declaration} {slots : List Slot}
    (run : Contract.groupPart typeName slotName role members = .ok (declarations, slots))
    {d : Declaration} (among : d ∈ declarations) {ref : ImportRef} (member : ref ∈ d.imports) :
    ∃ p ∈ members, ref ∈ p.type.imports := by
  unfold Contract.groupPart at run
  split at run
  · cases run
    cases among
  · obtain ⟨declaration, grouped, run⟩ := Attempt.bind_eq_ok run
    cases run
    rw [List.mem_singleton.mp among] at member
    unfold Contract.groupDeclaration at grouped
    obtain ⟨properties, -, grouped⟩ := Attempt.bind_eq_ok grouped
    cases grouped
    exact List.mem_flatMap.mp ((mem_distinctRefs _ _).mp member)

theorem bodyPart_imports {name : String} {o : Override} {body : Body} {d : Declaration}
    (among : d ∈ (Contract.bodyPart name o body).1) : d.imports = body.type.imports := by
  unfold Contract.bodyPart at among
  split at among
  · cases among
  · dsimp only at among
    split at among
    · cases among
    · rw [List.mem_singleton.mp among]

namespace Contract

/-- All types of a contract are read from the given schemas. -/
structure Sourced (schemas : List Value) (c : Contract) : Prop where
  path : ∀ p ∈ c.parameters.path, ∀ ref ∈ p.type.imports, ReadFrom schemas ref
  body : ∀ ref ∈ c.body.type.imports, ReadFrom schemas ref
  answer : ∀ ref ∈ c.answer.imports, ReadFrom schemas ref
  declarations : ∀ d ∈ c.declarations, ∀ ref ∈ d.imports, ReadFrom schemas ref

/-- A contract refers to what its types need and to what it declares. -/
theorem Sourced.imports {schemas : List Value} {c : Contract} (sourced : c.Sourced schemas)
    {ref : ImportRef} (member : ref ∈ c.imports) :
    ReadFrom schemas ref ∨ ∃ d ∈ c.declarations, ref = .model d.name := by
  rw [Contract.imports, mem_distinctRefs, List.mem_append, List.mem_append, List.mem_append,
    mem_sortedByName] at member
  rcases member with ((path | declared) | body) | answer
  · obtain ⟨p, among, inside⟩ := List.mem_flatMap.mp path
    exact Or.inl (sourced.path p among ref inside)
  · obtain ⟨d, among, rfl⟩ := List.mem_map.mp declared
    exact Or.inr ⟨d, among, rfl⟩
  · unfold bodyImports at body
    split at body
    · exact Or.inl (sourced.body ref ((mem_sortedByName _ _).mp body))
    · cases body
  · exact Or.inl (sourced.answer ref answer)

theorem build_sourced {name : String} {op : Operation} {o : Override} {c : Contract}
    (run : (build name op o).result = .ok c) : c.Sourced op.schemas := by
  unfold build at run
  obtain ⟨parameters, grouped, run⟩ := Traced.bind_eq_ok run
  have run := Traced.record_eq_ok run
  obtain ⟨body, request, run⟩ := Traced.bind_eq_ok run
  obtain ⟨answer, responses, run⟩ := Traced.bind_eq_ok run
  obtain ⟨pathSlots, -, run⟩ := Traced.bind_eq_ok run
  obtain ⟨query, inQuery, run⟩ := Traced.bind_eq_ok run
  obtain ⟨header, inHeader, run⟩ := Traced.bind_eq_ok run
  obtain ⟨_, -, run⟩ := Traced.bind_eq_ok run
  obtain ⟨path, -, run⟩ := Traced.bind_eq_ok run
  cases run
  have inParameters : ∀ location, ∀ q ∈ parameters.inLocation location,
      ∀ ref ∈ q.type.imports, ReadFrom op.schemas ref := by
    refine group_keeps grouped fun p member q read ref inside => ?_
    refine (normalize_readFrom read inside).mono fun schema here => ?_
    exact List.mem_append_left _ (List.mem_append_left _ (List.mem_flatMap.mpr ⟨p, member, here⟩))
  have inBody : ∀ ref ∈ body.type.imports, ReadFrom op.schemas ref := by
    intro ref inside
    refine (Body.normalize_readFrom request inside).mono fun schema here => ?_
    exact List.mem_append_left _ (List.mem_append_right _ here)
  have inAnswer : ∀ ref ∈ answer.imports, ReadFrom op.schemas ref := by
    intro ref inside
    exact (Answer.normalize_readFrom responses inside).mono fun schema here =>
      List.mem_append_right _ here
  refine ⟨inParameters .path, inBody, inAnswer, fun d among ref inside => ?_⟩
  rcases List.mem_append.mp among with groups | declared
  · rcases List.mem_append.mp groups with inGroup | inGroup
    · obtain ⟨p, member, inside⟩ := groupPart_imports inQuery inGroup inside
      exact inParameters .query p member ref inside
    · obtain ⟨p, member, inside⟩ := groupPart_imports inHeader inGroup inside
      exact inParameters .header p member ref inside
  · rw [bodyPart_imports declared] at inside
    exact inBody ref inside

end Contract

/-- **The types of a contract are read from the schemas of its operation.** -/
theorem Operation.contract_sourced {op : Operation} {o : Override} {c : Contract}
    (run : (op.contract o).result = .ok c) : c.Sourced op.schemas := by
  unfold Operation.contract at run
  obtain ⟨name, -, run⟩ := Traced.bind_eq_ok run
  obtain ⟨result, built, run⟩ := Traced.bind_eq_ok run
  cases result with
  | error failure => cases run
  | ok contract =>
      cases run
      exact Contract.build_sourced (Except.ok.inj built)

end ClientForge
