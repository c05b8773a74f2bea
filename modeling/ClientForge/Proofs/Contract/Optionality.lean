/-
# ClientForge.Proofs.Contract.Optionality -- which parameters callers may leave out

A parameter may be left out if it is not required, if it has a default, or if its schema declares
one.  What a schema declares is said by `Schema.DeclaresDefault`, which has a rule for a default of
its own and one for a member of `allOf`, and no other: a default below another key does not count
(`DeclaresDefault.put_iff`).

A parameter reaches its schema directly or through its media types (`RawParameter.HasSchema`).
Both forms give the same source up to the media type, and nothing behind `source` looks at that,
so they have one type and one rule (`normalize_optionality`).
-/
import ClientForge.Contract.Parameter
import ClientForge.Proofs.Data.Attempt
import ClientForge.Proofs.Data.Part

namespace ClientForge

set_option autoImplicit false

namespace Schema

/-- The schema declares a default: it has one itself, whatever its value, or a member of its
`allOf` declares one. -/
inductive DeclaresDefault : Value → Prop
  | own {entries : Entries} {v : Value} :
      Entries.get? "default" entries = some v → DeclaresDefault (.map entries)
  | member {entries : Entries} {items : List Value} {item : Value} :
      Entries.get? "allOf" entries = some (.list items) → item ∈ items →
      DeclaresDefault item → DeclaresDefault (.map entries)

theorem declaresDefault_map_iff {entries : Entries} :
    DeclaresDefault (.map entries) ↔
      (∃ v, Entries.get? "default" entries = some v) ∨
        ∃ items, Entries.get? "allOf" entries = some (.list items) ∧
          ∃ item ∈ items, DeclaresDefault item := by
  constructor
  · intro declares
    cases declares with
    | own found => exact Or.inl ⟨_, found⟩
    | member found among inside => exact Or.inr ⟨_, found, _, among, inside⟩
  · rintro (⟨v, found⟩ | ⟨items, found, item, among, inside⟩)
    · exact .own found
    · exact .member found among inside

/-- A default below another key does not count. -/
theorem DeclaresDefault.put_iff {key : String} (other : key ≠ "default") (other' : key ≠ "allOf")
    (v : Value) (entries : Entries) :
    DeclaresDefault (.map (Entries.put (.str key) v entries)) ↔ DeclaresDefault (.map entries) := by
  have kept : ∀ field, key ≠ field →
      Entries.get? field (Entries.put (.str key) v entries) = Entries.get? field entries := by
    intro field differs
    rw [Entries.get?_put, if_neg fun same => differs (Scalar.str.inj same)]
  rw [declaresDefault_map_iff, declaresDefault_map_iff, kept _ other, kept _ other']

theorem anyHasDefaultAt_iff {entries : Entries} :
    anyHasDefaultAt entries = true ↔
      ∃ items, Entries.get? "allOf" entries = some (.list items) ∧ anyHasDefault items = true := by
  induction entries with
  | nil => simp [anyHasDefaultAt]
  | cons entry rest ih =>
      obtain ⟨k, v⟩ := entry
      by_cases here : k = .str "allOf"
      · subst here
        cases v <;> simp [anyHasDefaultAt, Entries.get?]
      · rw [Entries.get?_cons_of_ne here, ← ih]
        cases v <;> simp [anyHasDefaultAt, here]

theorem anyHasDefault_iff {items : List Value} :
    anyHasDefault items = true ↔ ∃ item ∈ items, hasDefault item = true := by
  induction items with
  | nil => simp [anyHasDefault]
  | cons item rest ih => simp [anyHasDefault, ih]

theorem hasDefault_map_iff {entries : Entries} :
    hasDefault (.map entries) = true ↔
      (∃ v, Entries.get? "default" entries = some v) ∨
        ∃ items, Entries.get? "allOf" entries = some (.list items) ∧
          ∃ item ∈ items, hasDefault item = true := by
  rw [hasDefault, Bool.or_eq_true, Entries.has, Option.isSome_iff_exists, anyHasDefaultAt_iff]
  simp only [anyHasDefault_iff]

theorem DeclaresDefault.hasDefault {schema : Value} (declares : DeclaresDefault schema) :
    hasDefault schema = true := by
  induction declares with
  | own found => exact hasDefault_map_iff.mpr (Or.inl ⟨_, found⟩)
  | member found among _ ih => exact hasDefault_map_iff.mpr (Or.inr ⟨_, found, _, among, ih⟩)

theorem declaresDefault_of_hasDefault :
    ∀ {schema : Value}, hasDefault schema = true → DeclaresDefault schema
  | .atom _, has => by rw [hasDefault] at has; cases has
  | .list _, has => by rw [hasDefault] at has; cases has
  | .map entries, has => by
      rcases hasDefault_map_iff.mp has with ⟨v, found⟩ | ⟨items, found, item, among, inside⟩
      · exact .own found
      · -- the item is smaller than the list, and the list is a value of the map
        have entry := Entries.mem_of_get? found
        have smaller := List.sizeOf_lt_of_mem among
        have inner := List.sizeOf_lt_of_mem entry
        exact .member found among (declaresDefault_of_hasDefault inside)
  termination_by schema => sizeOf schema
  decreasing_by
    simp_wf
    simp only [Prod.mk.sizeOf_spec, Value.list.sizeOf_spec] at inner
    omega

theorem hasDefault_iff {schema : Value} : hasDefault schema = true ↔ DeclaresDefault schema :=
  ⟨declaresDefault_of_hasDefault, DeclaresDefault.hasDefault⟩

end Schema

namespace RawParameter

/-- The schema that the type of a parameter is read from: its own, or that of its first media type
which has one. -/
inductive HasSchema (p : RawParameter) : Value → Prop
  | direct {schema : Value} : p.schema = some schema → HasSchema p schema
  | content {front rest : List MediaType} {contentType : Scalar} {schema : Value} :
      p.schema = none → (∀ media ∈ front, media.schema = none) →
      p.content = front ++ ⟨contentType, some schema⟩ :: rest → HasSchema p schema

/-- The parameter with a schema of its own, whatever its media types say. -/
def withDirect (p : RawParameter) (schema : Value) (content : List MediaType) : RawParameter :=
  { p with schema := some schema, content }

/-- The parameter with a schema under a media type, behind others and in front of others. -/
def withContent (p : RawParameter) (front : List MediaType) (contentType : Scalar)
    (schema : Value) (rest : List MediaType) : RawParameter :=
  { p with schema := none, content := front ++ ⟨contentType, some schema⟩ :: rest }

theorem contentSource?_append {front rest : List MediaType} {contentType : Scalar}
    {schema : Value} (without : ∀ media ∈ front, media.schema = none) :
    contentSource? (front ++ ⟨contentType, some schema⟩ :: rest) =
      some (.content contentType schema) := by
  induction front with
  | nil => rfl
  | cons media rest ih =>
      obtain ⟨here, later⟩ := List.forall_mem_cons.mp without
      rw [List.cons_append, contentSource?, here]
      exact ih later

theorem contentSource?_eq_none {content : List MediaType}
    (without : ∀ media ∈ content, media.schema = none) : contentSource? content = none := by
  induction content with
  | nil => rfl
  | cons media rest ih =>
      obtain ⟨here, later⟩ := List.forall_mem_cons.mp without
      rw [contentSource?, here]
      exact ih later

theorem HasSchema.source {p : RawParameter} {schema : Value} (has : p.HasSchema schema) :
    ∃ source, p.source = .ok source ∧ source.schema = schema := by
  cases has with
  | direct own => exact ⟨.direct schema, by rw [RawParameter.source, own], rfl⟩
  | @content front rest contentType _ none without found =>
      refine ⟨.content contentType schema, ?_, rfl⟩
      rw [RawParameter.source, none, found, contentSource?_append without]

/-- Media types have a first schema, or none. -/
theorem content_cases (content : List MediaType) :
    (∀ media ∈ content, media.schema = none) ∨
      ∃ front contentType schema rest, content = front ++ ⟨contentType, some schema⟩ :: rest ∧
        ∀ media ∈ front, media.schema = none := by
  induction content with
  | nil => exact Or.inl fun media member => by cases member
  | cons media rest ih =>
      obtain ⟨contentType, schema⟩ := media
      cases schema with
      | some schema => exact Or.inr ⟨[], contentType, schema, rest, rfl, by simp⟩
      | none =>
          rcases ih with without | ⟨front, t, schema, behind, rfl, without⟩
          · exact Or.inl (List.forall_mem_cons.mpr ⟨rfl, without⟩)
          · exact Or.inr ⟨⟨contentType, none⟩ :: front, t, schema, behind, rfl,
              List.forall_mem_cons.mpr ⟨rfl, without⟩⟩

/-- A parameter has a schema, or there is none anywhere. -/
theorem schema_cases (p : RawParameter) :
    (∃ schema, p.HasSchema schema) ∨
      p.schema = none ∧ ∀ media ∈ p.content, media.schema = none := by
  cases own : p.schema with
  | some schema => exact Or.inl ⟨schema, .direct own⟩
  | none =>
      rcases content_cases p.content with without | ⟨front, t, schema, rest, found, without⟩
      · exact Or.inr ⟨rfl, without⟩
      · exact Or.inl ⟨schema, .content own without found⟩

/-- All that normalizing uses of a parameter with a schema; the form of the declaration is not
among it. -/
theorem HasSchema.normalize {p : RawParameter} {schema : Value} (has : p.HasSchema schema)
    (useDates : Bool) :
    p.normalize useDates = (Schema.resolve useDates schema false).map fun type =>
      ⟨p.name, type, p.isOptional schema, p.description⟩ := by
  obtain ⟨source, located, rfl⟩ := has.source
  unfold RawParameter.normalize
  rw [located]
  change Schema.resolve useDates source.schema false >>= _ = _
  cases Schema.resolve useDates source.schema false <;> rfl

theorem isOptional_iff {p : RawParameter} {schema : Value} :
    p.isOptional schema = true ↔
      p.required = false ∨ p.default.isSome = true ∨ Schema.DeclaresDefault schema := by
  rw [isOptional, Bool.or_eq_true, Bool.or_eq_true, Bool.not_eq_true', Schema.hasDefault_iff]
  exact ⟨fun | .inl (.inl own) => .inr (.inl own)
             | .inl (.inr free) => .inl free
             | .inr declared => .inr (.inr declared),
    fun | .inl free => .inl (.inr free)
        | .inr (.inl own) => .inl (.inl own)
        | .inr (.inr declared) => .inr declared⟩

theorem normalize_of_no_schema {p : RawParameter} (own : p.schema = none)
    (without : ∀ media ∈ p.content, media.schema = none) (useDates : Bool) :
    p.normalize useDates =
      .error (.of (.parameterWithoutSchema p.name.shown p.location.shown)) := by
  rw [normalize, source, own, contentSource?_eq_none without]
  rfl

/-- A parameter of a document has a default where the document gives one that is not null. -/
theorem default_isSome_iff {entries : Entries} {p : RawParameter}
    (read : Api.parameterOf entries = .ok p) :
    p.default.isSome = true ↔ ∃ v, Entries.get? "default" entries = some v ∧ v ≠ .null := by
  unfold Api.parameterOf at read
  obtain ⟨content, -, read⟩ := Attempt.bind_eq_ok read
  cases read
  have present : ∀ v : Value, v.present?.isSome = true ↔ v ≠ .null := by
    intro v
    unfold Value.present? Value.isNull
    split <;> simp_all
  cases found : Entries.get? "default" entries with
  | none => simp [Api.valueAt, found]
  | some v => simp [Api.valueAt, found, present]

/-- **Which parameters callers may leave out.**  A parameter whose schema can be located has the
type of this schema, and fails where that fails; it may be left out exactly if it is not required,
has a default that is not null, or has a schema that declares a default, itself or through `allOf`
and nowhere else.  A schema of its own and the same schema behind media types without one make no
difference, whatever else is declared.  Without a schema there is no parameter. -/
theorem normalize_optionality (o : Override) (p : RawParameter) :
    (∀ schema, p.HasSchema schema → ∃ optional : Bool,
      (optional = true ↔
        p.required = false ∨ p.default.isSome = true ∨ Schema.DeclaresDefault schema) ∧
      p.normalize o.useDates = (Schema.resolve o.useDates schema false).map fun type =>
        ⟨p.name, type, optional, p.description⟩) ∧
    (∀ entries, Api.parameterOf entries = .ok p →
      (p.default.isSome = true ↔ ∃ v, Entries.get? "default" entries = some v ∧ v ≠ .null)) ∧
    (∀ key, key ≠ "default" → key ≠ "allOf" → ∀ v entries,
      (Schema.DeclaresDefault (.map (Entries.put (.str key) v entries)) ↔
        Schema.DeclaresDefault (.map entries))) ∧
    (∀ (schema : Value) (content front rest : List MediaType) (contentType : Scalar),
      (∀ media ∈ front, media.schema = none) →
      (p.withDirect schema content).normalize o.useDates =
        (p.withContent front contentType schema rest).normalize o.useDates) ∧
    (p.schema = none → (∀ media ∈ p.content, media.schema = none) →
      ∃ cause, p.normalize o.useDates = .error (.of cause) ∧ cause.kind = .malformedParameter) := by
  refine ⟨fun schema has => ⟨_, isOptional_iff, has.normalize o.useDates⟩,
    fun entries read => default_isSome_iff read,
    fun key other other' v entries => Schema.DeclaresDefault.put_iff other other' v entries, ?_, ?_⟩
  · intro schema content front rest contentType without
    have direct : (p.withDirect schema content).HasSchema schema := .direct rfl
    have behind : (p.withContent front contentType schema rest).HasSchema schema :=
      .content rfl without rfl
    rw [direct.normalize, behind.normalize]
    rfl
  · intro own without
    exact ⟨_, normalize_of_no_schema own without o.useDates, rfl⟩

/-- An integer whose default is null, two `allOf` below. -/
def nestedDefault : Value :=
  .object [("allOf", .list [.object [("allOf", .list [
    .object [("type", .str "integer"), ("default", .null)]])]])]

/-- A required parameter, with nothing under its first media type. -/
def sizeEntries (schema : List (String × Value)) : Entries :=
  [(.str "name", .str "size"), (.str "in", .str "query"), (.str "required", .bool true),
    (.str "content", .object [("text/plain", .object []), ("application/json", .object schema)])]

theorem normalize_optionality_size :
    ∃ p q type, Api.parameterOf (sizeEntries [("schema", nestedDefault)]) = .ok p ∧
      p.required = true ∧ p.default.isSome = false ∧
      p.normalize false = .ok q ∧ q.type = type ∧ type.text = "number" ∧ q.optional = true ∧
      (p.withDirect nestedDefault []).normalize false =
        (p.withContent [⟨.str "text/plain", none⟩] (.str "application/json") nestedDefault
          []).normalize false ∧
      Schema.DeclaresDefault (.map (Entries.put (.str "oneOf") .null
        [(.str "default", .null)])) ∧
      ∃ bare cause, Api.parameterOf (sizeEntries []) = .ok bare ∧
        bare.normalize false = .error (.of cause) ∧ cause.kind = .malformedParameter := by
  obtain ⟨p, read, own, content, required⟩ :
      ∃ p, Api.parameterOf (sizeEntries [("schema", nestedDefault)]) = .ok p ∧ p.schema = none ∧
        p.content = [⟨.str "text/plain", none⟩] ++ ⟨.str "application/json", some nestedDefault⟩ ::
          [] ∧ p.required = true :=
    ⟨_, rfl, rfl, rfl, rfl⟩
  obtain ⟨bare, readBare, bareOwn, bareContent⟩ :
      ∃ p, Api.parameterOf (sizeEntries []) = .ok p ∧ p.schema = none ∧
        p.content = [⟨.str "text/plain", none⟩, ⟨.str "application/json", none⟩] :=
    ⟨_, rfl, rfl, rfl⟩
  have declares : Schema.DeclaresDefault nestedDefault :=
    .member rfl (List.mem_singleton_self _) (.member rfl (List.mem_singleton_self _) (.own rfl))
  obtain ⟨rule, defaults, keys, forms, -⟩ := normalize_optionality {} p
  obtain ⟨-, -, -, -, malformed⟩ := normalize_optionality {} bare
  obtain ⟨optional, decided, run⟩ := rule nestedDefault (.content own (by simp) content)
  have free : optional = true := decided.mpr (Or.inr (Or.inr declares))
  have noDefault : p.default.isSome = false := by
    rw [Bool.eq_false_iff, ne_eq, defaults _ read]
    rintro ⟨v, found, -⟩
    cases found
  obtain ⟨cause, failed, kind⟩ := malformed bareOwn (by rw [bareContent]; simp)
  refine ⟨p, _, _, read, required, noDefault, run, rfl, rfl, free, ?_, ?_, bare, cause, readBare,
    failed, kind⟩
  · exact forms nestedDefault [] [⟨.str "text/plain", none⟩] [] _ (by simp)
  · exact (keys "oneOf" (by decide) (by decide) _ _).mpr (.own rfl)

end RawParameter

end ClientForge
