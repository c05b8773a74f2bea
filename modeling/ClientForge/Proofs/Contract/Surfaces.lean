/-
# ClientForge.Proofs.Contract.Surfaces -- the parameter list of an operation, and when there is one

What a contract is made of (`Contract.Assembled`) decides its parameter list altogether: a slot for
every path parameter, one for each group that has members, one for the body and one for request
options (`Contract.Shaped`).  No parameter is lost on the way, and none changes its place among
those of its location.

For operations whose parts have the right types (`Operation.WellTyped`) each step of building is
refused for one reason only, so building as a whole is refused exactly if one of these reasons is
there (`Operation.contract_refusedIff`).  The parameters are looked at first, then the body and the
responses, each of which may refer to something that is no component schema.
-/
import ClientForge.Proofs.Contract.Imports
import ClientForge.Proofs.Contract.Optionality
import ClientForge.Proofs.Contract.Slots
import ClientForge.Proofs.Types.Refusals
import Mathlib.Data.List.Nodup

namespace ClientForge

set_option autoImplicit false

open Attempt (RefusedIff)
open Schema (HasShape IsForeign)

/-! ## The shape of a parameter list -/

namespace Contract

/-- The slot of a path parameter: its own type, and its own optionality. -/
def IsPathSlot (p : Parameter) (slot : Slot) : Prop :=
  ∃ name, p.name = .str name ∧ slot = ⟨.path, Naming.camel name, p.type.text, p.optional, none⟩

/-- The slots of a group of parameters: none if there are no parameters, and otherwise one, whose
type is the declaration of the contract that groups them. -/
def IsGroup (c : Contract) (role : Role) (slotName : String) (members : List Parameter)
    (slots : List Slot) : Prop :=
  members = [] ∧ slots = [] ∨
    members ≠ [] ∧ ∃ d names, d ∈ c.declarations ∧
      (∀ d' ∈ c.declarations, d'.name = d.name → d' = d) ∧ d.Groups members names ∧
      slots = [⟨role, slotName, d.name, members.all Parameter.optional, none⟩]

/-- The slots of the body: a required one if there is a body. -/
def IsBody (c : Contract) (slots : List Slot) : Prop :=
  c.body.defined = false ∧ c.bodyTypeName = none ∧ slots = [] ∨
    c.body.defined = true ∧ ∃ type, c.bodyTypeName = some type ∧
      slots = [⟨.body, Naming.camel type, type, false, c.mutator.bind Mutator.bodyTypeName⟩]

/-- Callers may pass request options: the settings allow it, and so does the mutator. -/
def TakesOptions (c : Contract) : Prop :=
  c.override.takesRequestOptions = true ∧ ∀ m, c.mutator = some m → m.hasSecondArg = true

/-- The slots of request options: an optional one if callers may pass any. -/
def IsOptions (c : Contract) (slots : List Slot) : Prop :=
  ¬ c.TakesOptions ∧ slots = [] ∨
    c.TakesOptions ∧ ∃ type, slots = [⟨.options, "options", type, true, none⟩]

/-- The parameter list of a contract, and the parameters that it is made from. -/
structure Shaped (op : Operation) (o : Override) (c : Contract) : Prop where
  /-- every parameter has a location, -/
  located : ∀ p ∈ op.parameters, ∃ l, IsFor l p
  /-- is found there, with its type, -/
  parameters : ∀ l, List.Forall₂ (Normalizes o) (op.parameters.filter fun p => IsFor l p)
    (c.parameters.inLocation l)
  /-- and has its share of the slots. -/
  slots : ∃ path query header body options : List Slot,
    c.surface.slots = path ++ query ++ header ++ body ++ options ∧
    List.Forall₂ IsPathSlot c.parameters.path path ∧
    c.IsGroup .query "params" c.parameters.query query ∧
    c.IsGroup .header "headers" c.parameters.header header ∧
    c.IsBody body ∧ c.IsOptions options

section Assembled

variable {op : Operation} {o : Override} {c : Contract} {path query header : List Slot}
  {queryTypes headerTypes : List Declaration}

theorem pathSlot_isPathSlot {p : Parameter} {slot : Slot} (run : pathSlot p = .ok slot) :
    IsPathSlot p slot := by
  unfold pathSlot at run
  obtain ⟨name, read, run⟩ := Attempt.bind_eq_ok run
  cases run
  exact ⟨name, textOf_eq_ok read, rfl⟩

theorem groupPart_declarations {typeName slotName : String} {role : Role}
    {members : List Parameter} {declarations : List Declaration} {slots : List Slot}
    (run : groupPart typeName slotName role members = .ok (declarations, slots)) :
    (declarations.map Declaration.name).Sublist [typeName] := by
  rcases groupPart_groups run with ⟨-, rfl, -⟩ | ⟨-, d, names, rfl, rfl, -⟩
  · exact List.nil_sublist _
  · exact .refl _

theorem bodyPart_declarations (name : String) (o : Override) (body : Body) :
    ((bodyPart name o body).1.map Declaration.name).Sublist [Naming.pascal name ++ "Body"] := by
  unfold bodyPart
  split
  · exact List.nil_sublist _
  · dsimp only
    split
    · exact List.nil_sublist _
    · exact .refl _

/-- The declarations of a contract have different names. -/
theorem Assembled.declarations_nodup
    (built : c.Assembled op o path query header queryTypes headerTypes) :
    (c.declarations.map Declaration.name).Nodup := by
  have sublist : (c.declarations.map Declaration.name).Sublist
      ([Naming.pascal c.name ++ "Params"] ++ [Naming.pascal c.name ++ "Headers"] ++
        [Naming.pascal c.name ++ "Body"]) := by
    rw [built.declarations, List.map_append, List.map_append]
    exact ((groupPart_declarations built.inQuery).append
      (groupPart_declarations built.inHeader)).append (bodyPart_declarations _ _ _)
  have endings : (["Params", "Headers", "Body"].map (Naming.pascal c.name ++ ·)).Nodup :=
    List.Nodup.map (fun a b same => (String.append_right_inj _).mp same) (by decide)
  exact sublist.nodup endings

theorem Assembled.isGroup (built : c.Assembled op o path query header queryTypes headerTypes)
    {typeName slotName : String} {role : Role} {members : List Parameter} {slots : List Slot}
    {declarations : List Declaration}
    (run : groupPart typeName slotName role members = .ok (declarations, slots))
    (among : ∀ d ∈ declarations, d ∈ c.declarations) : c.IsGroup role slotName members slots := by
  rcases groupPart_groups run with ⟨none, -, empty⟩ | ⟨some, d, names, only, name, groups, slot⟩
  · exact Or.inl ⟨none, empty⟩
  · have member : d ∈ c.declarations := among d (only ▸ List.mem_singleton_self d)
    refine Or.inr ⟨some, d, names, member, fun d' member' same => ?_, groups, name ▸ slot⟩
    exact List.inj_on_of_nodup_map built.declarations_nodup member' member same

theorem Assembled.isBody (built : c.Assembled op o path query header queryTypes headerTypes) :
    c.IsBody (bodyPart c.name o c.body).2.1 := by
  unfold IsBody
  rw [built.bodyTypeName, built.mutator]
  unfold bodyPart
  cases given : c.body.defined with
  | false => exact Or.inl ⟨rfl, rfl, rfl⟩
  | true => exact Or.inr ⟨rfl, _, rfl, rfl⟩

theorem Assembled.isOptions (built : c.Assembled op o path query header queryTypes headerTypes) :
    c.IsOptions (optionsSlot o) := by
  unfold IsOptions TakesOptions optionsSlot
  rw [built.override, built.mutator]
  cases takes : o.takesRequestOptions with
  | false => exact Or.inl ⟨by simp, rfl⟩
  | true =>
      cases o.mutator with
      | none => exact Or.inr ⟨by simp, _, rfl⟩
      | some m =>
          cases second : m.hasSecondArg with
          | false => exact Or.inl ⟨by simp [second], by simp [second]⟩
          | true => exact Or.inr ⟨by simp [second], secondParameterType m, by simp [second]⟩

theorem Assembled.shaped (built : c.Assembled op o path query header queryTypes headerTypes) :
    c.Shaped op o where
  located := foldlM_groupOne_located built.grouped
  parameters := built.parametersAt
  slots := by
    refine ⟨path, query, header, _, _, built.slots, ?_, ?_, ?_, built.isBody, built.isOptions⟩
    · exact (Attempt.mapM_eq_ok built.inPath).imp fun _ _ => pathSlot_isPathSlot
    · refine built.isGroup built.inQuery fun d member => ?_
      rw [built.declarations]
      exact List.mem_append_left _ (List.mem_append_left _ member)
    · refine built.isGroup built.inHeader fun d member => ?_
      rw [built.declarations]
      exact List.mem_append_left _ (List.mem_append_right _ member)

end Assembled

end Contract

/-! ## Operations of the right types -/

/-- A schema, where there is one, has the right shape. -/
def MediaType.WellTyped (media : MediaType) : Prop :=
  ∀ schema, media.schema = some schema → HasShape .schema schema

/-- Names and locations are texts, and schemas have the right shape. -/
structure RawParameter.WellTyped (p : RawParameter) : Prop where
  name : ∃ s, p.name = .str s
  location : ∃ s, p.location = .str s
  schema : ∀ schema, p.schema = some schema → HasShape .schema schema
  content : ∀ media ∈ p.content, media.WellTyped

/-- The parts of an operation have the types that the specification of documents gives them. -/
structure Operation.WellTyped (op : Operation) : Prop where
  path : ∃ s, op.path = .str s
  id : ∀ v, op.id = some v → ∃ s, v = .str s
  parameters : ∀ p ∈ op.parameters, p.WellTyped
  body : ∀ body, op.requestBody = some body →
    ∀ media ∈ body.content, (∃ s, media.contentType = .str s) ∧ media.WellTyped
  responses : ∀ response ∈ op.responses, ∀ media ∈ response.content, media.WellTyped

/-! ## What is refused -/

/-- A parameter is refused: it has an unknown location, no name or no schema, or a schema that
leads to a foreign reference. -/
def RawParameter.IsRefused (p : RawParameter) : Prop :=
  (∀ l, ¬ Contract.IsFor l p) ∨ p.name = .str "" ∨ (∀ schema, ¬ p.HasSchema schema) ∨
    ∃ schema, p.HasSchema schema ∧ IsForeign schema

/-- The first schema of a list of media types leads to a foreign reference. -/
def Response.IsRefused (response : Response) : Prop :=
  ∃ schema, Answer.firstSchema? response.content = some schema ∧ IsForeign schema

/-- The schema of the first media type leads to a foreign reference. -/
def RequestBody.IsRefused (body : RequestBody) : Prop :=
  ∃ media schema, body.content.head? = some media ∧ media.schema = some schema ∧ IsForeign schema

/-- An operation is refused: a parameter is, or its body, or a response. -/
def Operation.IsRefused (op : Operation) : Prop :=
  (∃ p ∈ op.parameters, p.IsRefused) ∨
    (∃ body, op.requestBody = some body ∧ body.IsRefused) ∨
    ∃ response ∈ op.responses, response.IsRefused

/-! ## Steps -/

theorem resolve_refusedIff (useDates : Bool) {schema : Value} (shaped : HasShape .schema schema) :
    (Schema.resolve useDates schema false).RefusedIff (IsForeign schema) :=
  (Schema.read_refusedIff useDates schema shaped).map

namespace RawParameter

theorem HasSchema.wellTyped {p : RawParameter} {schema : Value} (has : p.HasSchema schema)
    (typed : p.WellTyped) : HasShape .schema schema := by
  cases has with
  | direct own => exact typed.schema schema own
  | @content front rest contentType _ _ _ found =>
      have member : (⟨contentType, some schema⟩ : MediaType) ∈ p.content := by
        rw [found]
        exact List.mem_append_right _ List.mem_cons_self
      exact typed.content _ member schema rfl

/-- A parameter has one schema at most. -/
theorem HasSchema.unique {p : RawParameter} {schema other : Value} (has : p.HasSchema schema)
    (has' : p.HasSchema other) : schema = other := by
  obtain ⟨source, located, rfl⟩ := has.source
  obtain ⟨source', located', rfl⟩ := has'.source
  rw [Except.ok.inj (located.symm.trans located')]

theorem normalize_refusedIff {p : RawParameter} (typed : p.WellTyped) (useDates : Bool) :
    (p.normalize useDates).RefusedIff ((∀ schema, ¬ p.HasSchema schema) ∨
      ∃ schema, p.HasSchema schema ∧ IsForeign schema) := by
  rcases p.schema_cases with ⟨schema, has⟩ | ⟨own, inContent⟩
  · rw [has.normalize]
    refine (resolve_refusedIff useDates (has.wellTyped typed)).map.congr ?_
    rw [or_iff_right fun without => without schema has]
    exact ⟨fun foreign => ⟨schema, has, foreign⟩, fun ⟨other, has', foreign⟩ =>
      has.unique has' ▸ foreign⟩
  · rw [normalize_of_no_schema own inContent]
    refine (RefusedIff.reject _).congr (iff_of_true trivial (Or.inl fun schema has => ?_))
    cases has with
    | direct found => rw [own] at found; cases found
    | content _ _ found =>
        have none := inContent _ (found ▸ List.mem_append_right _ List.mem_cons_self)
        cases none

end RawParameter

namespace Contract

theorem groupOne_refusedIff (o : Override) {p : RawParameter} (typed : p.WellTyped)
    (g : ParameterGroups) : (groupOne o g p).RefusedIff p.IsRefused := by
  obtain ⟨location, located⟩ := typed.location
  obtain ⟨name, named⟩ := typed.name
  unfold groupOne
  rw [located]
  dsimp only
  cases known : Location.ofName? location with
  | none =>
      have nowhere : ∀ l, ¬ IsFor l p := by
        intro l here
        have same : location = l.name :=
          Scalar.str.inj (Value.atom.inj (located.symm.trans here))
        subst same
        cases l <;> cases known
      exact (RefusedIff.reject _).congr (iff_of_true trivial (Or.inl nowhere))
  | some place =>
      have here : IsFor place p := by
        have same := List.find?_some known
        rw [IsFor, located, of_decide_eq_true same]
      have somewhere : ¬ ∀ l, ¬ IsFor l p := fun nowhere => nowhere place here
      rw [RawParameter.IsRefused, or_iff_right somewhere]
      dsimp only
      by_cases unnamed : name = ""
      · subst unnamed
        rw [if_pos (by rw [named]; rfl)]
        exact (RefusedIff.reject _).congr (iff_of_true trivial (Or.inl named))
      · have given : p.name.truthy = true := by
          rw [named]
          simpa [Value.truthy, Scalar.truthy] using unnamed
        have other : p.name ≠ .str "" := by
          rw [named]
          simpa using unnamed
        rw [if_neg (by simp [given]), or_iff_right other]
        exact ((p.normalize_refusedIff typed o.useDates).bind fun q _ => .ok _).congr
          (or_iff_left not_false)

theorem group_refusedIff (o : Override) {parameters : List RawParameter}
    (typed : ∀ p ∈ parameters, p.WellTyped) :
    (group o parameters).RefusedIff (∃ p ∈ parameters, p.IsRefused) :=
  .foldlM fun p member g => groupOne_refusedIff o (typed p member) g

end Contract

theorem Body.normalize_refusedIff (o : Override) {body : Option RequestBody}
    (typed : ∀ b, body = some b →
      ∀ media ∈ b.content, (∃ s, media.contentType = .str s) ∧ media.WellTyped) :
    (Body.normalize o body).RefusedIff (∃ b, body = some b ∧ b.IsRefused) := by
  have checked : ∀ (start : String) {t : Scalar}, (∃ s, t = .str s) →
      (Body.hasType start t).RefusedIff False := by
    rintro start t ⟨s, rfl⟩
    exact .ok _
  cases body with
  | none => exact (RefusedIff.ok _).congr (by simp)
  | some b =>
      obtain ⟨required, content⟩ := b
      cases content with
      | nil => exact (RefusedIff.ok _).congr (by simp [RequestBody.IsRefused])
      | cons media rest =>
          obtain ⟨text, shaped⟩ := typed _ rfl media List.mem_cons_self
          have type : (Schema.resolve o.useDates (media.schema.getD .null) false).RefusedIff
              (∃ schema, media.schema = some schema ∧ IsForeign schema) := by
            cases own : media.schema with
            | none => exact (RefusedIff.ok _).congr (by simp)
            | some schema =>
                exact (resolve_refusedIff o.useDates (shaped schema own)).congr (by simp)
          refine (type.bind fun t _ =>
            .choice (checked formDataType text) (.ok false) fun isFormData =>
              .choice (checked formUrlEncodedType text) (.ok false) fun isUrlEncoded =>
                .ok _).congr ?_
          simp [RequestBody.IsRefused]

theorem Answer.typed_refusedIff (useDates : Bool) {responses : List Response}
    (typed : ∀ response ∈ responses, ∀ media ∈ response.content, media.WellTyped) :
    (Answer.typed useDates responses).RefusedIff (∃ response ∈ responses, response.IsRefused) := by
  induction responses with
  | nil => exact (RefusedIff.ok _).congr (by simp)
  | cons response rest ih =>
      obtain ⟨here, later⟩ := List.forall_mem_cons.mp typed
      rw [Answer.typed]
      split
      · rename_i none
        refine (ih later).congr ?_
        simp [Response.IsRefused, none]
      · rename_i schema found
        obtain ⟨media, among, own⟩ := List.mem_filterMap.mp (firstSchema?_mem found)
        refine ((resolve_refusedIff useDates (here media among schema own)).bind fun t _ =>
          (ih later).bind fun types _ => .ok _).congr ?_
        simp [Response.IsRefused, found]

theorem Answer.normalize_refusedIff (o : Override) {responses : List Response}
    (typed : ∀ response ∈ responses, ∀ media ∈ response.content, media.WellTyped) :
    (Answer.normalize o responses).RefusedIff (∃ response ∈ responses, response.IsRefused) :=
  ((Answer.typed_refusedIff o.useDates typed).bind fun _ _ => .ok _).congr
    (or_iff_left not_false)

/-! ## Building -/

namespace Contract

/-- The names of the parameters that are grouped are texts. -/
theorem grouped_text {o : Override} {parameters : List RawParameter} {g : ParameterGroups}
    (typed : ∀ p ∈ parameters, p.WellTyped) (run : group o parameters = .ok g) (l : Location) :
    ∀ q ∈ g.inLocation l, ∃ name, q.name = .str name := by
  intro q member
  obtain ⟨later, same, each⟩ := foldlM_groupOne run l
  have start : ParameterGroups.inLocation {} l = [] := by cases l <;> rfl
  rw [start, List.nil_append] at same
  obtain ⟨p, among, normalizes⟩ := exists_of_mem_right each (same ▸ member)
  obtain ⟨name, named⟩ := (typed p (List.mem_of_mem_filter among)).name
  exact ⟨name, normalizes.keeps.1.trans named⟩

theorem pathSlots_refusedIff {members : List Parameter}
    (text : ∀ q ∈ members, ∃ name, q.name = .str name) :
    Attempt.RefusedIff False (members.mapM pathSlot) := by
  refine .mapM_accepts fun q member => ?_
  obtain ⟨name, named⟩ := text q member
  unfold pathSlot
  rw [named]
  exact .ok _

theorem groupPart_refusedIff {typeName slotName : String} {role : Role} {members : List Parameter}
    (text : ∀ q ∈ members, ∃ name, q.name = .str name) :
    Attempt.RefusedIff False (groupPart typeName slotName role members) := by
  unfold groupPart
  split
  · exact .ok _
  · have properties : Attempt.RefusedIff False (members.mapM property) := by
      refine .mapM_accepts fun q member => ?_
      obtain ⟨name, named⟩ := text q member
      unfold property
      rw [named]
      exact .ok _
    refine ((properties.bind fun texts _ => .ok _).bind fun d _ => .ok _).congr ?_
    simp

theorem build_refusedIff (name : String) {op : Operation} (typed : op.WellTyped) (o : Override) :
    (build name op o).result.RefusedIff op.IsRefused := by
  obtain ⟨path, isPath⟩ := typed.path
  have named : Attempt.RefusedIff False (textOf (.atom op.path)) := by
    rw [isPath]
    exact .ok path
  unfold build
  refine (Traced.bind_refusedIff (group_refusedIff o typed.parameters) fun g grouped => ?_).congr
    Iff.rfl
  have text := grouped_text typed.parameters grouped
  refine Traced.record_refusedIff ?_
  refine Traced.bind_refusedIff (Body.normalize_refusedIff o typed.body) fun body _ => ?_
  refine (Traced.bind_refusedIff (Answer.normalize_refusedIff o typed.responses)
    fun answer _ => ?_).congr (or_iff_left not_false)
  -- nothing is refused from here on
  refine (Traced.bind_refusedIff (pathSlots_refusedIff (text .path))
    fun _ _ => ?_).congr or_self_iff
  refine (Traced.bind_refusedIff (groupPart_refusedIff (text .query))
    fun _ _ => ?_).congr or_self_iff
  refine (Traced.bind_refusedIff (groupPart_refusedIff (text .header))
    fun _ _ => ?_).congr or_self_iff
  refine (Traced.bind_refusedIff (.ok ()) fun _ _ => ?_).congr or_self_iff
  exact (Traced.bind_refusedIff named fun _ _ => .ok _).congr or_self_iff

end Contract

theorem Operation.functionName_refusedIff {op : Operation} (typed : op.WellTyped) :
    op.functionName.RefusedIff False := by
  unfold functionName
  split
  · exact .ok _
  · rename_i id given
    obtain ⟨s, rfl⟩ := typed.id id given
    split
    · exact .ok _
    · exact .ok _

theorem Operation.contract_refusedIff {op : Operation} (typed : op.WellTyped) (o : Override) :
    (op.contract o).result.RefusedIff op.IsRefused := by
  unfold contract
  refine (Traced.bind_refusedIff (functionName_refusedIff typed) fun name _ => ?_).congr
    (or_iff_right not_false)
  have built := Contract.build_refusedIff name typed o
  have run : (Contract.build name op o).attempt.result =
      .ok (Contract.build name op o).result := rfl
  rw [Traced.bind_ok run]
  cases result : (Contract.build name op o).result with
  | ok c =>
      rw [result] at built
      exact (RefusedIff.ok c).congr
        (iff_of_false not_false fun refused => built.exists_ok_iff.mp ⟨c, rfl⟩ refused)
  | error failure =>
      rw [result] at built
      have refused : op.IsRefused := by
        by_contra free
        obtain ⟨c, ok⟩ := built.accepts free
        cases ok
      obtain ⟨report, error⟩ := built.refuses refused
      cases error
      exact ⟨fun free => absurd refused free, fun _ => ⟨report.placedAt name op.route, rfl⟩⟩

/-- **The parameter list of an operation.**  A contract has one slot for each path parameter, in
order, one for its query parameters and one for its headers if there are any, each with a
declaration that groups them, one for its body if there is one, and one for request options if
callers may pass any; every parameter of the operation is found at its location, in order.  An
operation of the right types has a contract unless a parameter has an unknown location, no name or
no schema, or the schema of a parameter, of the body or of a response leads to a foreign
reference; this is reported then. -/
theorem Operation.contract_shaped (op : Operation) (o : Override) :
    (∀ c, (op.contract o).result = .ok c → c.Shaped op o) ∧
      (op.WellTyped → (op.contract o).result.RefusedIff op.IsRefused) := by
  refine ⟨fun c built => ?_, fun typed => contract_refusedIff typed o⟩
  obtain ⟨path, query, header, queryTypes, headerTypes, assembled⟩ := op.contract_eq_ok built
  exact assembled.shaped

/-- A parameter that is a text. -/
def RawParameter.ofText (name location : String) (required : Bool) : RawParameter where
  name := .str name
  location := .str location
  required := required
  schema := some (.object [("type", .str "string")])
  content := []

/-- Reading one pet; its parameters are declared in no particular order. -/
def readPet : Operation where
  verb := .get
  path := .str "/pets/\x7bpetId\x7d"
  id := some (.str "readPet")
  parameters := [.ofText "page" "query" false, .ofText "session" "cookie" true,
    .ofText "petId" "path" true, .ofText "X-Trace" "header" false, .ofText "limit" "query" true]
  requestBody := none
  responses := []
  extensions := []

/-- Adding a pet whose schema stands outside the components. -/
def addForeignPet : Operation where
  verb := .post
  path := .str "/pets"
  id := some (.str "addPet")
  parameters := []
  requestBody := some ⟨true, [⟨.str "application/json",
    some (.object [("$ref", .str "#/definitions/Pet")])⟩]⟩
  responses := []
  extensions := []

theorem addForeignPet_wellTyped : addForeignPet.WellTyped where
  path := ⟨_, rfl⟩
  id := by
    rintro v ⟨⟩
    exact ⟨_, rfl⟩
  parameters := fun p member => by cases member
  body := by
    rintro body ⟨⟩
    refine List.forall_mem_singleton.mpr ⟨⟨_, rfl⟩, ?_⟩
    rintro schema ⟨⟩
    refine Schema.hasShape_object (List.forall_mem_singleton.mpr ?_)
    rintro shape ⟨⟩
    exact .text _
  responses := fun response member => by cases member

theorem contract_shaped_readPet :
    ∃ c, (readPet.contract {}).result = .ok c ∧
      c.surface.names = ["petId", "params", "headers", "options"] ∧ c.Shaped readPet {} ∧
      addForeignPet.WellTyped ∧
      (addForeignPet.contract {}).result.RefusedIff addForeignPet.IsRefused := by
  obtain ⟨c, built, names⟩ : ∃ c, (readPet.contract {}).result = .ok c ∧
      c.surface.names = ["petId", "params", "headers", "options"] := ⟨_, rfl, rfl⟩
  exact ⟨c, built, names, (Operation.contract_shaped readPet {}).1 c built,
    addForeignPet_wellTyped, (Operation.contract_shaped addForeignPet {}).2 addForeignPet_wellTyped⟩

/-- **The schemas of parameters are not the only ones that count**: an operation without any
parameter is refused for the schema of its body. -/
theorem contract_refused_for_body :
    addForeignPet.WellTyped ∧ (∀ p ∈ addForeignPet.parameters, ¬ p.IsRefused) ∧
      ∃ report, (addForeignPet.contract {}).result = .error (.reported report) ∧
        report.cause = .foreignReference "#/definitions/Pet" ∧
        report.operation = some "addPet" ∧ report.route = some addForeignPet.route :=
  ⟨addForeignPet_wellTyped, List.forall_mem_nil _, _, rfl, rfl, rfl, rfl⟩

end ClientForge
