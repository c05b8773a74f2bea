/-
# ClientForge.Proofs.Client.Signatures -- when a signature declares a parameter twice

The names of a signature come from three sources.  The variables of path parameters are made of
the names that a document gives them, the variable of the body of the name of its type, and
those of the query, the headers and the request options are the same for all operations.

Nothing compares the three with each other.  A path may have `pet-id` and `pet_id`, which are one
variable, or a parameter that is called `params` beside a query.  What has to be different is
exactly this (`NamesApart`): path parameters have distinct names, because a document cannot
declare one twice, the fixed names differ from one another, and a body that has no model of its
own ends in letters that none of these ends in (`camel_body_notFixed`).
-/
import ClientForge.Proofs.Client.Mentions
import ClientForge.Proofs.Naming.Joining
import ClientForge.Proofs.Operation.Parameters
import Mathlib.Data.List.Nodup

namespace ClientForge

set_option autoImplicit false

open Text (Within)

namespace Contract

/-- The names of the path parameters. -/
def pathNames (c : Contract) : List String :=
  c.parameters.path.filterMap fun p => (textOf p.name).toOption

/-- The variables for groups of parameters and for request options, where there are any; they
are the same for all operations. -/
def fixedNames (c : Contract) : List String :=
  (if c.parameters.query.isEmpty then [] else ["params"]) ++
    (if c.parameters.header.isEmpty then [] else ["headers"]) ++
    (c.transportOptions?.map fun _ => "options").toList

/-- The body has a model, and is called like it. -/
def hasModelBody (c : Contract) : Bool := c.body.type.imports.contains (.model c.body.type.text)

/-- The variables of a signature do not meet. -/
structure NamesApart (c : Contract) : Prop where
  /-- Two path parameters are two variables. -/
  path : ∀ a ∈ c.pathNames, ∀ b ∈ c.pathNames, Naming.camel a = Naming.camel b → a = b
  /-- None of them is called like a group of parameters or the request options, -/
  fixed : ∀ a ∈ c.pathNames, Naming.camel a ∉ c.fixedNames
  /-- and none like the body. -/
  body : ∀ a ∈ c.pathNames, ∀ type, c.bodyTypeName = some type →
    Naming.camel a ≠ Naming.camel type
  /-- A model that is the body is not called like these either. -/
  model : c.hasModelBody = true → ∀ type, c.bodyTypeName = some type →
    Naming.camel type ∉ c.fixedNames

/-! ## Fixed names -/

/-- They stand in this order, and there are no others. -/
theorem fixedNames_sublist (c : Contract) :
    c.fixedNames.Sublist ["params", "headers", "options"] := by
  have group (members : List Parameter) (name : String) :
      (if members.isEmpty then [] else [name]).Sublist [name] := by
    split
    · exact List.nil_sublist _
    · exact .refl _
  have options : (c.transportOptions?.map fun _ => "options").toList.Sublist ["options"] := by
    cases c.transportOptions? with
    | none => exact List.nil_sublist _
    | some t => exact .refl _
  exact ((group c.parameters.query "params").append
    (group c.parameters.header "headers")).append options

theorem fixedNames_nodup (c : Contract) : c.fixedNames.Nodup :=
  c.fixedNames_sublist.nodup (by decide)

/-- How the variable of a body ends that has no model. -/
def bodyEnding : List Char := "ody".toList

theorem camel_body (start : String) : bodyEnding <:+ (Naming.camel (start ++ "Body")).toList := by
  have capital : Text.upperChar 'B' = ['B'] := by decide
  have letters : ∀ d ∈ 'B' :: bodyEnding, Text.isAlphanumeric d = true := by decide
  obtain ⟨front, joined⟩ := Naming.camelChars_suffix start.toList capital letters
  have spelled : (start ++ "Body").toList = start.toList ++ 'B' :: bodyEnding :=
    String.toList_append
  unfold Naming.camel
  rw [spelled, joined, String.toList_ofList]
  exact ⟨front, rfl⟩

/-- A body that has no model is called like no group of parameters and no request options. -/
theorem camel_body_notFixed (c : Contract) (start : String) :
    Naming.camel (start ++ "Body") ∉ c.fixedNames := by
  have others : ∀ name ∈ ["params", "headers", "options"], ¬ bodyEnding <:+ name.toList := by decide
  exact fun member => others _ (c.fixedNames_sublist.subset member) (camel_body start)

/-! ## Path parameters -/

theorem toOption_textOf {v : Value} {name : String} :
    (textOf v).toOption = some name ↔ v = .str name := by
  constructor
  · intro read
    unfold textOf at read
    split at read
    · exact congrArg Value.str (Option.some.inj read)
    · cases read
  · rintro rfl
    rfl

section Built

variable {op : Operation} {o : Override} {c : Contract} {path query header : List Slot}
  {queryTypes headerTypes : List Declaration}

/-- No two parameters at one location have one name. -/
theorem Assembled.names_differ
    (built : c.Assembled op o path query header queryTypes headerTypes)
    (distinct : op.HasDistinctParameters) (l : Location) :
    (c.parameters.inLocation l).Pairwise fun p q =>
      ∀ name, p.name = .str name → q.name ≠ .str name := by
  have apart : (op.parameters.filter fun p => IsFor l p).Pairwise fun p q =>
      p.name.truthy = true → ∀ name, p.name = .str name → q.name ≠ .str name := by
    refine (distinct.sublist List.filter_sublist).imp_of_mem ?_
    intro p q first second differs given name isName isName'
    have located : IsFor l p := of_decide_eq_true (List.mem_filter.mp first).2
    have located' : IsFor l q := of_decide_eq_true (List.mem_filter.mp second).2
    have nonempty : name ≠ "" := by
      rintro rfl
      rw [isName] at given
      cases given
    have somewhere : l.name ≠ "" := by cases l <;> decide
    exact differs name l.name nonempty somewhere ⟨isName, located⟩ ⟨isName', located'⟩
  refine pairwise_of_forall₂ ?_ (built.parametersAt l) apart
  intro p p' q q' normalizes normalizes' apart name isName isName'
  obtain ⟨same, given⟩ := normalizes.keeps
  rw [same] at isName
  rw [normalizes'.keeps.1] at isName'
  exact apart given name isName isName'

/-- No two path parameters have one name. -/
theorem Assembled.pathNames_nodup
    (built : c.Assembled op o path query header queryTypes headerTypes)
    (distinct : op.HasDistinctParameters) : c.pathNames.Nodup := by
  refine List.pairwise_filterMap.mpr ((built.names_differ distinct .path).imp ?_)
  rintro q q' apart a read b read' rfl
  exact apart a (toOption_textOf.mp read) (toOption_textOf.mp read')

/-! ## Signatures -/

theorem Assembled.path_names
    (built : c.Assembled op o path query header queryTypes headerTypes) :
    path.map Slot.name = c.pathNames.map Naming.camel := by
  have each := Attempt.mapM_eq_ok built.inPath
  unfold pathNames
  generalize c.parameters.path = parameters at each
  clear built
  induction each with
  | nil => rfl
  | @cons p slot parameters path first rest ih =>
      obtain ⟨name, read, made⟩ := Attempt.bind_eq_ok first
      have found : (textOf p.name).toOption = some name := by
        rw [read]
        rfl
      cases made
      simp [found, ih]

theorem groupPart_names {typeName slotName : String} {role : Role} {members : List Parameter}
    {declarations : List Declaration} {slots : List Slot}
    (run : groupPart typeName slotName role members = .ok (declarations, slots)) :
    slots.map Slot.name = if members.isEmpty then [] else [slotName] := by
  unfold groupPart at run
  split at run
  · rename_i empty
    cases run
    rw [if_pos empty]
    rfl
  · rename_i some
    obtain ⟨declaration, -, run⟩ := Attempt.bind_eq_ok run
    cases run
    rw [if_neg some]
    rfl

theorem bodyPart_names (name : String) (o : Override) (body : Body) :
    (bodyPart name o body).2.1.map Slot.name =
      ((bodyPart name o body).2.2.map Naming.camel).toList := by
  unfold bodyPart
  split <;> rfl

/-- What the variable of a slot is called. -/
def IsNameOf (c : Contract) (name : String) : Role → Prop
  | .path => name ∈ c.pathNames.map Naming.camel
  | .query => name = "params"
  | .header => name = "headers"
  | .body => ∃ type, c.bodyTypeName = some type ∧ name = Naming.camel type
  | .options => name = "options"

/-- The role of a slot says how it is called. -/
theorem Assembled.name_of_role
    (built : c.Assembled op o path query header queryTypes headerTypes) {slot : Slot}
    (member : slot ∈ c.surface.slots) : c.IsNameOf slot.name slot.role := by
  have group : ∀ {members : List Parameter} {slots : List Slot} {name : String},
      slots.map Slot.name = (if members.isEmpty then [] else [name]) → slot ∈ slots →
        slot.name = name := by
    intro members slots name names among
    have named := List.mem_map_of_mem (f := Slot.name) among
    rw [names] at named
    split at named
    · cases named
    · exact List.mem_singleton.mp named
  rw [built.slots] at member
  rcases List.mem_append.mp member with front | last
  · obtain ⟨role, inPath⟩ | ⟨role, inQuery⟩ | ⟨role, inHeader⟩ | ⟨role, inBody⟩ :=
      built.mem_front front
    · rw [role, IsNameOf, ← built.path_names]
      exact List.mem_map_of_mem inPath
    · rw [role]
      exact group (groupPart_names built.inQuery) inQuery
    · rw [role]
      exact group (groupPart_names built.inHeader) inHeader
    · have named := List.mem_map_of_mem (f := Slot.name) inBody
      rw [bodyPart_names, ← built.bodyTypeName] at named
      obtain ⟨type, some, same⟩ := Option.map_eq_some_iff.mp (Option.mem_toList.mp named)
      rw [role]
      exact ⟨type, some, same.symm⟩
  · rw [optionsSlot_role slot last]
    rw [built.optionsSlot_eq] at last
    obtain ⟨t, -, rfl⟩ := Option.map_eq_some_iff.mp (Option.mem_toList.mp last)
    rfl

/-- Where a role has one slot at most, the variable of the role is that of the slot. -/
theorem Assembled.slotName?_eq
    (built : c.Assembled op o path query header queryTypes headerTypes) {slot : Slot}
    (member : slot ∈ c.surface.slots) (single : slot.role ≠ .path) :
    c.slotName? slot.role = some slot.name := by
  have found : (c.surface.first? slot.role).isSome = true := by
    refine List.find?_isSome.mpr ⟨slot, member, by simp⟩
  obtain ⟨first, here⟩ := Option.isSome_iff_exists.mp found
  have role : first.role = slot.role := by simpa using List.find?_some here
  have one := built.name_of_role member
  have other := built.name_of_role (List.mem_of_find?_eq_some here)
  rw [role] at other
  have same : first.name = slot.name := by
    cases known : slot.role with
    | path => exact absurd known single
    | body =>
        rw [known] at one other
        obtain ⟨type, some, name⟩ := one
        obtain ⟨type', some', name'⟩ := other
        rw [name, name', Option.some.inj (some.symm.trans some')]
    | _ =>
        rw [known] at one other
        exact other.trans one.symm
  unfold slotName?
  rw [here, Option.map_some, same]

/-- The names of all slots, by what they are made of. -/
theorem Assembled.names_perm
    (built : c.Assembled op o path query header queryTypes headerTypes) :
    c.surface.names.Perm (c.pathNames.map Naming.camel ++
      ((c.bodyTypeName.map Naming.camel).toList ++ c.fixedNames)) := by
  have body := bodyPart_names c.name o c.body
  rw [← built.bodyTypeName] at body
  have options : (optionsSlot o).map Slot.name =
      (c.transportOptions?.map fun _ => "options").toList := by
    rw [built.optionsSlot_eq]
    cases c.transportOptions? <;> rfl
  unfold Surface.names fixedNames
  rw [built.slots]
  simp only [List.map_append, built.path_names, groupPart_names built.inQuery,
    groupPart_names built.inHeader, body, options, List.append_assoc]
  refine .append_left _ ?_
  -- the body stands behind the groups of parameters
  rw [← List.append_assoc, ← List.append_assoc, ← List.append_assoc, ← List.append_assoc]
  refine .append_right _ ?_
  rw [List.append_assoc (Option.toList _)]
  exact List.perm_append_comm

/-- A body without a model is called after the operation. -/
theorem Assembled.bodyTypeName_eq
    (built : c.Assembled op o path query header queryTypes headerTypes) {type : String}
    (some : c.bodyTypeName = some type) (inline : c.hasModelBody = false) :
    type = Naming.pascal c.name ++ "Body" := by
  rw [built.bodyTypeName] at some
  unfold bodyPart at some
  unfold hasModelBody at inline
  split at some
  · cases some
  · simp only [inline] at some
    exact (Option.some.inj some).symm

/-- The parameters of a signature are distinct exactly if what they are made of is apart. -/
theorem Assembled.names_nodup_iff
    (built : c.Assembled op o path query header queryTypes headerTypes)
    (distinct : op.HasDistinctParameters) : c.surface.names.Nodup ↔ c.NamesApart := by
  have inPath := List.nodup_map_iff_inj_on (f := Naming.camel) (built.pathNames_nodup distinct)
  rw [built.names_perm.nodup_iff, List.nodup_append, List.nodup_append, inPath]
  constructor
  · rintro ⟨path, ⟨-, -, body⟩, others⟩
    refine ⟨path, fun a member there => ?_, fun a member type some => ?_,
      fun _ type some there => ?_⟩
    · exact others _ (List.mem_map_of_mem member) _ (List.mem_append_right _ there) rfl
    · refine others _ (List.mem_map_of_mem member) _ (List.mem_append_left _ ?_)
      rw [some]
      exact List.mem_singleton_self _
    · refine body _ ?_ _ there rfl
      rw [some]
      exact List.mem_singleton_self _
  · rintro ⟨path, fixed, body, model⟩
    have bodyFixed : ∀ type, c.bodyTypeName = some type → Naming.camel type ∉ c.fixedNames := by
      intro type some
      cases inline : c.hasModelBody with
      | true => exact model inline type some
      | false =>
          rw [built.bodyTypeName_eq some inline]
          exact c.camel_body_notFixed _
    have inBody : ∀ {v}, v ∈ (c.bodyTypeName.map Naming.camel).toList →
        ∃ type, c.bodyTypeName = some type ∧ Naming.camel type = v := fun member =>
      Option.map_eq_some_iff.mp (Option.mem_toList.mp member)
    refine ⟨path, ⟨?_, c.fixedNames_nodup, ?_⟩, ?_⟩
    · cases c.bodyTypeName with
      | none => exact .nil
      | some type => exact List.nodup_singleton _
    · rintro v member w there rfl
      obtain ⟨type, some, rfl⟩ := inBody member
      exact bodyFixed type some there
    · rintro v member w there rfl
      obtain ⟨a, named, rfl⟩ := List.mem_map.mp member
      rcases List.mem_append.mp there with isBody | isFixed
      · obtain ⟨type, some, same⟩ := inBody isBody
        exact body a named type some same.symm
      · exact fixed a named isFixed

end Built

/-- **A signature declares no parameter twice, as long as what its names are made of is apart.**
The names of the slots are those that the request function declares, one for each slot. -/
theorem signature_distinct_iff {document : Value} {api : Api} {op : Operation} {o : Override}
    {c : Contract} (read : Api.ofDocument document = .ok api) (member : op ∈ api.operations)
    (built : (op.contract o).result = .ok c) :
    (c.surface.names.Nodup ↔ c.NamesApart) ∧
      ∀ profile f, c.request profile = .ok f → f.surface = c.surface ∧
        List.Forall₂ DeclaresParameter c.surface.names f.surface.parts ∧
        ∀ part ∈ f.surface.parts, Within ("  " ++ part ++ ",\n") f.render := by
  obtain ⟨_, _, _, _, _, assembled⟩ := Operation.contract_eq_ok built
  refine ⟨assembled.names_nodup_iff (Api.ofDocument_distinct read op member),
    fun profile f request => ?_⟩
  obtain ⟨-, surface, -⟩ := request_eq_ok request
  refine ⟨surface, ?_, fun _ => f.parameter_within⟩
  rw [surface]
  exact Surface.parts_declare _

/-- A parameter that is a text. -/
def textParameter (name location : String) : Value :=
  .object [("name", .str name), ("in", .str location), ("required", .bool (location == "path")),
    ("schema", .object [("type", .str "string")])]

/-- A document with these operations, each with its path, its verb and its parts. -/
def documentOf (operations : List (String × String × List (String × Value))) : Value :=
  .object [("paths", .object (operations.map fun (path, verb, parts) =>
    (path, .object [(verb, .object parts)])))]

/-- A visit of a pet, which the path and the query name differently. -/
def visits : Value :=
  documentOf [("/pets/\x7bpet-id\x7d/visits/\x7bvisit_id\x7d", "get", [
    ("operationId", .str "getVisit"),
    ("parameters", .list [textParameter "pet-id" "path", textParameter "visit_id" "path",
      textParameter "pet_id" "query"]),
    ("responses", .object [])])]

theorem signature_distinct_visits :
    ∃ api op c, Api.ofDocument visits = .ok api ∧ op ∈ api.operations ∧
      (op.contract {}).result = .ok c ∧
      c.surface.names = ["petId", "visitId", "params", "options"] ∧ c.NamesApart := by
  have runs : ∃ api op c, Api.ofDocument visits = .ok api ∧ api.operations = [op] ∧
      (op.contract {}).result = .ok c ∧
      c.surface.names = ["petId", "visitId", "params", "options"] := ⟨_, _, _, rfl, rfl, rfl, rfl⟩
  obtain ⟨api, op, c, read, only, built, names⟩ := runs
  have member : op ∈ api.operations := by simp [only]
  refine ⟨api, op, c, read, member, built, names,
    (signature_distinct_iff read member built).1.mp ?_⟩
  rw [names]
  decide

/-- A pet that is compared with another, and a report whose path has a part that is called like
the parameters of the query. -/
def spelledTwice : Value :=
  documentOf [("/pets/\x7bpet-id\x7d/\x7bpet_id\x7d", "get", [
      ("operationId", .str "comparePets"),
      ("parameters", .list [textParameter "pet-id" "path", textParameter "pet_id" "path"]),
      ("responses", .object [])]),
    ("/reports/\x7bparams\x7d", "get", [
      ("operationId", .str "getReport"),
      ("parameters", .list [textParameter "params" "path", textParameter "limit" "query"]),
      ("responses", .object [])])]

/-- Two spellings of one name are one variable, and a path parameter may be called like a group
of parameters. -/
theorem signature_repeats :
    ∃ api comparison report c c', Api.ofDocument spelledTwice = .ok api ∧
      api.operations = [comparison, report] ∧ comparison.HasDistinctParameters ∧
      report.HasDistinctParameters ∧ (comparison.contract {}).result = .ok c ∧
      (report.contract {}).result = .ok c' ∧
      c.surface.names = ["petId", "petId", "options"] ∧ ¬ c.surface.names.Nodup ∧
      c'.surface.names = ["params", "params", "options"] ∧ ¬ c'.surface.names.Nodup := by
  have runs : ∃ api comparison report c c', Api.ofDocument spelledTwice = .ok api ∧
      api.operations = [comparison, report] ∧ (comparison.contract {}).result = .ok c ∧
      (report.contract {}).result = .ok c' ∧ c.surface.names = ["petId", "petId", "options"] ∧
      c'.surface.names = ["params", "params", "options"] :=
    ⟨_, _, _, _, _, rfl, rfl, rfl, rfl, rfl, rfl⟩
  obtain ⟨api, comparison, report, c, c', read, both, built, built', names, names'⟩ := runs
  have distinct := Api.ofDocument_distinct read
  rw [both] at distinct
  obtain ⟨first, second⟩ := List.forall_mem_cons.mp distinct
  refine ⟨api, comparison, report, c, c', read, both, first, second report List.mem_cons_self,
    built, built', names, ?_, names', ?_⟩
  · rw [names]
    decide
  · rw [names']
    decide

end Contract

end ClientForge
