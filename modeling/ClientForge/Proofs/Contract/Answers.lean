/-
# ClientForge.Proofs.Contract.Answers -- the two types of an answer

The responses of an operation are read once, in order.  Of those whose status begins with 2 the
first that declares a schema makes the success (`SuccessSource`), and all others that declare one
make the failures (`FailureSources`); what a response declares is the schema of the first media
type that has one.  Whether a call returns depends on all of these schemas alike.

From there on the two sides never meet: the error is the union of the types of the failures, each
once and where it first occurs (`FirstOccurrences`), and the models that are needed are those of
the schemas that count (`Answer.Combines`).  So neither side changes with responses of the other
(`Answer.normalize_combines`).

A side without a source is unknown.  For the success this also holds of a type whose text is
empty, which is that of a component schema without any letter or digit in its name
(`Answer.normalize_combines_nameless`).
-/
import ClientForge.Contract.Payload
import ClientForge.Proofs.Imports.Order
import ClientForge.Proofs.Reference.SchemaName
import ClientForge.Proofs.Text.Within

namespace ClientForge

set_option autoImplicit false

open Text (Begins)

/-! ## First occurrences -/

/-- The items of a list without repeats, in the order in which they first occur. -/
structure FirstOccurrences {α : Type} [DecidableEq α] (xs ys : List α) : Prop where
  same : ∀ x, x ∈ ys ↔ x ∈ xs
  inOrder : ys.Pairwise fun a b => xs.idxOf a < xs.idxOf b

/-- There is one such list. -/
theorem FirstOccurrences.unique {α : Type} [DecidableEq α] {xs ys zs : List α}
    (first : FirstOccurrences xs ys) (second : FirstOccurrences xs zs) : ys = zs := by
  have distinct {list : List α} (order : list.Pairwise fun a b => xs.idxOf a < xs.idxOf b) :
      list.Nodup := order.imp fun before same => by
    rw [same] at before
    omega
  have perm : ys.Perm zs := by
    rw [List.perm_ext_iff_of_nodup (distinct first.inOrder) (distinct second.inOrder)]
    intro x
    rw [first.same, second.same]
  refine perm.eq_of_pairwise ?_ first.inOrder second.inOrder
  intro a b _ _ before behind
  omega

/-- An item at the end of a list comes behind all others, unless it has occurred before. -/
theorem firstOccurrences_eraseDups {α : Type} [DecidableEq α] (xs : List α) :
    FirstOccurrences xs xs.eraseDups := by
  refine ⟨fun x => List.mem_eraseDups, ?_⟩
  induction xs using List.reverseRecOn with
  | nil => exact .nil
  | append_singleton xs x ih =>
      have earlier : xs.eraseDups.Pairwise fun a b =>
          (xs ++ [x]).idxOf a < (xs ++ [x]).idxOf b := by
        refine ih.imp_of_mem ?_
        intro a b first second before
        rw [List.idxOf_append_of_mem (List.mem_eraseDups.mp first),
          List.idxOf_append_of_mem (List.mem_eraseDups.mp second)]
        exact before
      rw [eraseDups_snoc]
      split
      · exact earlier
      · rename_i new
        refine List.pairwise_append.mpr ⟨earlier, List.pairwise_singleton _ _, ?_⟩
        intro a old b only
        have known : a ∈ xs := List.mem_eraseDups.mp old
        have bound : xs.idxOf a < xs.length := List.idxOf_lt_length_of_mem known
        rw [List.mem_singleton.mp only, List.idxOf_append_of_mem known,
          List.idxOf_append_of_notMem new]
        omega

/-! ## Sources -/

namespace Response

/-- The status of a success. -/
def IsSuccessful (r : Response) : Prop := Begins "2" r.status

instance (r : Response) : Decidable r.IsSuccessful := inferInstanceAs (Decidable (Begins _ _))

/-- The schema of the first media type that has one. -/
def Declares (r : Response) (schema : Value) : Prop :=
  ∃ front media rest, r.content = front ++ media :: rest ∧ media.schema = some schema ∧
    ∀ other ∈ front, other.schema = none

end Response

/-- The schema of the success: that of the first successful response which declares one. -/
inductive SuccessSource : List Response → Option Value → Prop
  | none : SuccessSource [] .none
  | here {r : Response} {rest : List Response} {schema : Value} : r.IsSuccessful →
      r.Declares schema → SuccessSource (r :: rest) (some schema)
  | later {r : Response} {rest : List Response} {source : Option Value} :
      (r.IsSuccessful → ∀ schema, ¬ r.Declares schema) → SuccessSource rest source →
      SuccessSource (r :: rest) source

/-- The schemas of the failures: those of all other responses that declare one. -/
inductive FailureSources : List Response → List Value → Prop
  | nil : FailureSources [] []
  | here {r : Response} {rest : List Response} {schema : Value} {schemas : List Value} :
      ¬ r.IsSuccessful → r.Declares schema → FailureSources rest schemas →
      FailureSources (r :: rest) (schema :: schemas)
  | later {r : Response} {rest : List Response} {schemas : List Value} :
      (¬ r.IsSuccessful → ∀ schema, ¬ r.Declares schema) → FailureSources rest schemas →
      FailureSources (r :: rest) schemas

namespace Answer

theorem isSuccess_iff (r : Response) : isSuccess r.status = true ↔ r.IsSuccessful := by
  show (r.status.toList.head? == some '2') = true ↔ ['2'] <+: r.status.toList
  cases r.status.toList with
  | nil => simp
  | cons c rest =>
      rw [List.head?_cons, beq_iff_eq, Option.some.injEq, List.cons_prefix_cons, eq_comm]
      exact (and_iff_left (List.nil_prefix)).symm

theorem firstSchema?_eq (content : List MediaType) :
    firstSchema? content = content.findSome? MediaType.schema := by
  induction content with
  | nil => rfl
  | cons media rest ih =>
      rw [firstSchema?, List.findSome?_cons, ih]
      cases media.schema <;> rfl

theorem firstSchema?_eq_some_iff {r : Response} {schema : Value} :
    firstSchema? r.content = some schema ↔ r.Declares schema := by
  rw [firstSchema?_eq, List.findSome?_eq_some_iff]
  rfl

theorem firstSchema?_eq_none_iff {r : Response} :
    firstSchema? r.content = none ↔ ∀ schema, ¬ r.Declares schema := by
  simp only [← firstSchema?_eq_some_iff, Option.eq_none_iff_forall_ne_some, ne_eq]

end Answer

theorem Response.Declares.unique {r : Response} {schema other : Value} (here : r.Declares schema)
    (there : r.Declares other) : schema = other := by
  rw [← Answer.firstSchema?_eq_some_iff] at here there
  exact Option.some.inj (here.symm.trans there)

/-! ## Only responses of its side make a source -/

/-- The success has one source. -/
theorem SuccessSource.unique {responses : List Response} {source other : Option Value}
    (here : SuccessSource responses source) (there : SuccessSource responses other) :
    source = other := by
  induction here with
  | none =>
      cases there
      rfl
  | here successful declares =>
      cases there with
      | here _ declares' => rw [declares.unique declares']
      | later nothing _ => exact absurd declares (nothing successful _)
  | later nothing _ ih =>
      cases there with
      | here successful declares => exact absurd declares (nothing successful _)
      | later _ there => exact ih there

theorem FailureSources.unique {responses : List Response} {schemas others : List Value}
    (here : FailureSources responses schemas) (there : FailureSources responses others) :
    schemas = others := by
  induction here generalizing others with
  | nil =>
      cases there
      rfl
  | here failed declares _ ih =>
      cases there with
      | here _ declares' there =>
          rw [declares.unique declares', ih there]
      | later nothing _ => exact absurd declares (nothing failed _)
  | later nothing _ ih =>
      cases there with
      | here failed declares _ => exact absurd declares (nothing failed _)
      | later _ there => exact ih there

/-- The other responses may as well be left out. -/
theorem SuccessSource.filter {responses : List Response} {source : Option Value}
    (here : SuccessSource responses source) :
    SuccessSource (responses.filter fun r => r.IsSuccessful) source := by
  induction here with
  | none => exact .none
  | here successful declares =>
      rw [List.filter_cons_of_pos (by simpa using successful)]
      exact .here successful declares
  | @later r _ _ nothing _ ih =>
      by_cases successful : r.IsSuccessful
      · rw [List.filter_cons_of_pos (by simpa using successful)]
        exact .later nothing ih
      · rwa [List.filter_cons_of_neg (by simpa using successful)]

theorem FailureSources.filter {responses : List Response} {schemas : List Value}
    (here : FailureSources responses schemas) :
    FailureSources (responses.filter fun r => ¬ r.IsSuccessful) schemas := by
  induction here with
  | nil => exact .nil
  | here failed declares _ ih =>
      rw [List.filter_cons_of_pos (by simpa using failed)]
      exact .here failed declares ih
  | @later r _ _ nothing _ ih =>
      by_cases failed : ¬ r.IsSuccessful
      · rw [List.filter_cons_of_pos (by simpa using failed)]
        exact .later nothing ih
      · rwa [List.filter_cons_of_neg (by simpa using failed)]

namespace Answer

/-! ## Reading the sources -/

/-- The type that a schema of a response is read as. -/
def Reads (o : Override) (schema : Value) (type : ResolvedType) : Prop :=
  Schema.resolve o.useDates schema false = .ok type

theorem firstSuccess?_cons (r : Response) (type : ResolvedType)
    (types : List (String × ResolvedType)) : firstSuccess? ((r.status, type) :: types) =
      if r.IsSuccessful then some type else firstSuccess? types := by
  unfold firstSuccess?
  rw [List.find?_cons]
  by_cases successful : r.IsSuccessful
  · rw [if_pos successful, (isSuccess_iff r).mpr successful]
    rfl
  · rw [if_neg successful, Bool.eq_false_iff.mpr (mt (isSuccess_iff r).mp successful)]

theorem failures_cons (r : Response) (type : ResolvedType)
    (types : List (String × ResolvedType)) : failures ((r.status, type) :: types) =
      if r.IsSuccessful then failures types else type :: failures types := by
  unfold failures
  rw [List.filter_cons]
  by_cases successful : r.IsSuccessful
  · rw [if_pos successful, (isSuccess_iff r).mpr successful]
    rfl
  · rw [if_neg successful, Bool.eq_false_iff.mpr (mt (isSuccess_iff r).mp successful)]
    rfl

/-- One pass over the responses reads the sources of both sides. -/
theorem typed_eq_ok {o : Override} {responses : List Response}
    {types : List (String × ResolvedType)} (run : typed o.useDates responses = .ok types) :
    ∃ source schemas, SuccessSource responses source ∧ FailureSources responses schemas ∧
      Option.Rel (Reads o) source (firstSuccess? types) ∧
      List.Forall₂ (Reads o) schemas (failures types) := by
  induction responses generalizing types with
  | nil =>
      cases run
      exact ⟨none, [], .none, .nil, .none, .nil⟩
  | cons r rest ih =>
      unfold typed at run
      split at run
      · rename_i nothing
        have nothing := firstSchema?_eq_none_iff.mp nothing
        obtain ⟨source, schemas, success, failed, reads⟩ := ih run
        exact ⟨source, schemas, .later (fun _ => nothing) success, .later (fun _ => nothing) failed,
          reads⟩
      · rename_i schema found
        have declares := firstSchema?_eq_some_iff.mp found
        obtain ⟨type, read, run⟩ := Attempt.bind_eq_ok run
        obtain ⟨types, later, run⟩ := Attempt.bind_eq_ok run
        cases run
        obtain ⟨source, schemas, success, failed, readsSuccess, readsFailures⟩ := ih later
        rw [firstSuccess?_cons, failures_cons]
        by_cases successful : r.IsSuccessful
        · rw [if_pos successful, if_pos successful]
          exact ⟨some schema, schemas, .here successful declares,
            .later (fun not => absurd successful not) failed, .some read, readsFailures⟩
        · rw [if_neg successful, if_neg successful]
          exact ⟨source, schema :: schemas, .later (fun is => absurd is successful) success,
            .here successful declares failed, readsSuccess, .cons read readsFailures⟩

/-- Reading goes through exactly if it does for all that the responses declare. -/
theorem typed_returns_iff (o : Override) (responses : List Response) :
    (∃ types, typed o.useDates responses = .ok types) ↔
      ∀ r ∈ responses, ∀ schema, r.Declares schema → ∃ type, Reads o schema type := by
  induction responses with
  | nil => simp [typed]
  | cons r rest ih =>
      rw [List.forall_mem_cons, ← ih, typed]
      split
      · rename_i nothing
        have nothing := firstSchema?_eq_none_iff.mp nothing
        exact (and_iff_right fun schema declares => absurd declares (nothing schema)).symm
      · rename_i schema found
        constructor
        · rintro ⟨types, run⟩
          obtain ⟨type, read, run⟩ := Attempt.bind_eq_ok run
          obtain ⟨types, later, -⟩ := Attempt.bind_eq_ok run
          refine ⟨fun other declares => ⟨type, ?_⟩, types, later⟩
          rwa [declares.unique (firstSchema?_eq_some_iff.mp found)]
        · rintro ⟨each, types, later⟩
          obtain ⟨type, read⟩ := each schema (firstSchema?_eq_some_iff.mp found)
          refine ⟨(r.status, type) :: types, ?_⟩
          rw [show Schema.resolve o.useDates schema false = .ok type from read, later]
          rfl

/-! ## The two sides -/

/-- The answer that is made of the type of a success, if there is one, and those of failures. -/
structure Combines (success : Option ResolvedType) (failures : List ResolvedType) (a : Answer) :
    Prop where
  unknownSuccess : success = none → a.success = "unknown"
  /-- An empty text counts as none. -/
  ofSuccess : ∀ type, success = some type →
    a.success = if type.text = "" then "unknown" else type.text
  unknownError : failures = [] → a.error = "unknown"
  ofFailures : failures ≠ [] → ∃ texts,
    FirstOccurrences (failures.map ResolvedType.text) texts ∧
      a.error = String.intercalate " | " texts
  mem_imports : ∀ ref, ref ∈ a.imports ↔
    (∃ type, success = some type ∧ ref ∈ type.imports) ∨ ∃ type ∈ failures, ref ∈ type.imports
  distinct : a.imports.Nodup

theorem normalize_eq_ok {o : Override} {responses : List Response} {a : Answer}
    (run : normalize o responses = .ok a) : ∃ types, typed o.useDates responses = .ok types ∧
      Combines (firstSuccess? types) (failures types) a := by
  unfold normalize at run
  obtain ⟨types, read, run⟩ := Attempt.bind_eq_ok run
  cases run
  have empty : ((failures types).map ResolvedType.text).eraseDups.isEmpty = true ↔
      failures types = [] := by
    cases failures types with
    | nil => simp
    | cons type rest => simp [List.eraseDups_cons]
  refine ⟨types, read, ?_⟩
  constructor
  case unknownSuccess =>
    intro nothing
    rw [nothing]
    rfl
  case ofSuccess =>
    intro type counts
    rw [counts]
    rfl
  case unknownError => exact fun nothing => if_pos (empty.mpr nothing)
  case ofFailures =>
    intro some
    exact ⟨_, firstOccurrences_eraseDups _, if_neg (mt empty.mp some)⟩
  case mem_imports =>
    intro ref
    show ref ∈ distinctRefs _ ↔ _
    rw [mem_distinctRefs, List.mem_append, List.mem_flatMap]
    cases firstSuccess? types with
    | none => simp
    | some type => simp
  case distinct => exact nodup_distinctRefs _

namespace Combines

variable {success other : Option ResolvedType} {failures others : List ResolvedType} {a b : Answer}

/-- The type of the success is settled by that of its source. -/
theorem success_eq (here : Combines success failures a) (there : Combines success others b) :
    a.success = b.success := by
  cases counts : success with
  | none => rw [here.unknownSuccess counts, there.unknownSuccess counts]
  | some type => rw [here.ofSuccess type counts, there.ofSuccess type counts]

/-- The error is settled by the types of the failures. -/
theorem error_eq (here : Combines success failures a) (there : Combines other failures b) :
    a.error = b.error := by
  by_cases nothing : failures = []
  · rw [here.unknownError nothing, there.unknownError nothing]
  · obtain ⟨texts, first, error⟩ := here.ofFailures nothing
    obtain ⟨texts', first', error'⟩ := there.ofFailures nothing
    rw [error, error', first.unique first']

end Combines

/-- The answer is made of the types of the sources among the responses. -/
def MadeOf (o : Override) (responses : List Response) (a : Answer) : Prop :=
  ∃ source schemas success failures, SuccessSource responses source ∧
    FailureSources responses schemas ∧ Option.Rel (Reads o) source success ∧
    List.Forall₂ (Reads o) schemas failures ∧ Combines success failures a

theorem normalize_madeOf {o : Override} {responses : List Response} {a : Answer}
    (run : normalize o responses = .ok a) : MadeOf o responses a := by
  obtain ⟨types, read, combines⟩ := normalize_eq_ok run
  obtain ⟨source, schemas, success, failed, readsSuccess, readsFailures⟩ := typed_eq_ok read
  exact ⟨source, schemas, _, _, success, failed, readsSuccess, readsFailures, combines⟩

theorem Reads.unique {o : Override} {schema : Value} {type other : ResolvedType}
    (here : Reads o schema type) (there : Reads o schema other) : type = other :=
  Except.ok.inj (here.symm.trans there)

section Independence

variable {o : Override} {responses others : List Response} {a b : Answer}

/-- Only the successful responses matter for the success. -/
theorem MadeOf.success_eq (here : MadeOf o responses a) (there : MadeOf o others b)
    (same : (others.filter fun r => r.IsSuccessful) = responses.filter fun r => r.IsSuccessful) :
    b.success = a.success := by
  obtain ⟨source, _, success, _, isSource, -, reads, -, combines⟩ := here
  obtain ⟨source', _, success', _, isSource', -, reads', -, combines'⟩ := there
  obtain rfl : source' = source := by
    have filtered := isSource'.filter
    rw [same] at filtered
    exact filtered.unique isSource.filter
  obtain rfl : success' = success := by
    cases reads with
    | none =>
        cases reads'
        rfl
    | some read =>
        cases reads' with
        | some read' => rw [read'.unique read]
  exact combines'.success_eq combines

/-- Only the other responses matter for the error. -/
theorem MadeOf.error_eq (here : MadeOf o responses a) (there : MadeOf o others b)
    (same : (others.filter fun r => ¬ r.IsSuccessful) =
      responses.filter fun r => ¬ r.IsSuccessful) : b.error = a.error := by
  obtain ⟨_, schemas, _, failures, -, areSources, -, reads, combines⟩ := here
  obtain ⟨_, schemas', _, failures', -, areSources', -, reads', combines'⟩ := there
  obtain rfl : schemas' = schemas := by
    have filtered := areSources'.filter
    rw [same] at filtered
    exact filtered.unique areSources.filter
  obtain rfl : failures' = failures :=
    List.right_unique_forall₂' (fun _ _ _ first second => first.unique second) reads' reads
  exact combines'.error_eq combines

end Independence

/-- **The two types of an answer.**  The answer is made of the sources of its two sides: it can be
made exactly if all that the responses declare can be read, and then it has the type of the first
successful response with a schema, the union of the types of all others, and the models that
these need.  Neither side changes with responses of the other. -/
theorem normalize_combines (o : Override) (responses : List Response) :
    ((∃ a, normalize o responses = .ok a) ↔
        ∀ r ∈ responses, ∀ schema, r.Declares schema → ∃ type, Reads o schema type) ∧
      ∀ a, normalize o responses = .ok a → MadeOf o responses a ∧
        ∀ others b, normalize o others = .ok b →
          ((others.filter fun r => r.IsSuccessful) = responses.filter (fun r => r.IsSuccessful) →
            b.success = a.success) ∧
          ((others.filter fun r => ¬ r.IsSuccessful) =
            responses.filter (fun r => ¬ r.IsSuccessful) → b.error = a.error) := by
  constructor
  · rw [← typed_returns_iff]
    constructor
    · rintro ⟨a, run⟩
      obtain ⟨types, read, -⟩ := normalize_eq_ok run
      exact ⟨types, read⟩
    · rintro ⟨types, read⟩
      unfold normalize
      rw [read]
      exact ⟨_, rfl⟩
  · intro a run
    have here := normalize_madeOf run
    refine ⟨here, fun others b run' => ?_⟩
    have there := normalize_madeOf run'
    exact ⟨here.success_eq there, here.error_eq there⟩

/-- A response with these schemas, one for each media type. -/
def responseOf (status : String) (schemas : List (Option Value)) : Response :=
  ⟨status, none, schemas.map fun schema => ⟨.str "application/json", schema⟩⟩

/-- Answers with a pet or with a list of them, of which the second does not count, and two
failures with one type. -/
def petResponses : List Response := [
  responseOf "404" [some (schemaNode "Problem" [])],
  responseOf "200" [none],
  responseOf "201" [none, some (schemaNode "Pet" []), some (schemaNode "Cat" [])],
  responseOf "202" [some (.object [("type", .str "array"), ("items", schemaNode "Dog" [])])],
  responseOf "default" [some (.object [("type", .str "string")])],
  responseOf "500" [some (schemaNode "Problem" [])]]

theorem normalize_combines_pets :
    ∃ a b c, normalize {} petResponses = .ok a ∧
      a = ⟨"Pet", "Problem | string", [.model "Pet", .model "Problem"]⟩ ∧
      MadeOf {} petResponses a ∧
      normalize {} (petResponses.filter fun r => r.IsSuccessful) = .ok b ∧ b.success = a.success ∧
      normalize {} (petResponses.filter fun r => ¬ r.IsSuccessful) = .ok c ∧
      c.error = a.error := by
  have runs : ∃ a b c, normalize {} petResponses = .ok a ∧
      a = ⟨"Pet", "Problem | string", [.model "Pet", .model "Problem"]⟩ ∧
      normalize {} (petResponses.filter fun r => r.IsSuccessful) = .ok b ∧
      normalize {} (petResponses.filter fun r => ¬ r.IsSuccessful) = .ok c :=
    ⟨_, _, _, rfl, rfl, rfl, rfl⟩
  obtain ⟨a, b, c, run, same, run', run''⟩ := runs
  obtain ⟨-, made⟩ := normalize_combines {} petResponses
  obtain ⟨made, apart⟩ := made a run
  refine ⟨a, b, c, run, same, made, run', ?_, run'', ?_⟩
  · exact (apart _ b run').1 (by simp)
  · exact (apart _ c run'').2 (by simp)

/-- A component schema without a letter or a digit in its name makes a type with an empty text,
and as the type of a success this text is not taken over. -/
theorem normalize_combines_nameless :
    ∃ type a, SuccessSource [responseOf "200" [some (schemaNode "---" [])]]
        (some (schemaNode "---" [])) ∧
      Reads {} (schemaNode "---" []) type ∧
      normalize {} [responseOf "200" [some (schemaNode "---" [])]] = .ok a ∧
      type.text = "" ∧ a.success = "unknown" := by
  refine ⟨_, _, .here (by decide) ⟨[], _, [], rfl, rfl, by simp⟩, rfl, rfl, by decide, by decide⟩

end Answer

end ClientForge
