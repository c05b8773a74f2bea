/-
# ClientForge.Proofs.Contract.Slots -- how a contract is put together

`Assembled` says all that building a contract does: which steps gave its parts, and in which
order the slots and the declarations stand.  The slots of each kind have the role of their
kind, so the request options, where there are any, are the last slot and the only one of
their role (`Assembled.slots_eq`).
-/
import ClientForge.Contract.Basic
import ClientForge.Proofs.Data.Attempt
import ClientForge.Proofs.Data.Part

namespace ClientForge

set_option autoImplicit false

/-- The text of a parameter as a member of the type that groups it. -/
def Parameter.memberText (name : String) (p : Parameter) : String :=
  (MemberKey.property name p.optional).text ++ ": " ++ p.type.text

/-- The declaration is the object type of the parameters, in order, under these names. -/
structure Declaration.Groups (d : Declaration) (members : List Parameter)
    (names : List String) : Prop where
  named : List.Forall₂ (fun p name => p.name = .str name) members names
  definition : d.definition = TypeExpr.objectText (List.zipWith Parameter.memberText names members)

namespace Contract

/-- A contract, and the slots and declarations that its parts gave. -/
structure Assembled (op : Operation) (o : Override) (c : Contract)
    (path query header : List Slot) (queryTypes headerTypes : List Declaration) : Prop where
  verb : c.verb = op.verb
  override : c.override = o
  mutator : c.mutator = o.mutator
  grouped : group o op.parameters = .ok c.parameters
  body : Body.normalize o op.requestBody = .ok c.body
  answer : Answer.normalize o op.responses = .ok c.answer
  inPath : c.parameters.path.mapM pathSlot = .ok path
  inQuery : groupPart (Naming.pascal c.name ++ "Params") "params" .query c.parameters.query =
    .ok (queryTypes, query)
  inHeader : groupPart (Naming.pascal c.name ++ "Headers") "headers" .header c.parameters.header =
    .ok (headerTypes, header)
  slots : c.surface.slots =
    path ++ query ++ header ++ (bodyPart c.name o c.body).2.1 ++ optionsSlot o
  declarations : c.declarations = queryTypes ++ headerTypes ++ (bodyPart c.name o c.body).1
  bodyTypeName : c.bodyTypeName = (bodyPart c.name o c.body).2.2

theorem build_eq_ok {name : String} {op : Operation} {o : Override} {c : Contract}
    (run : (build name op o).result = .ok c) :
    ∃ path query header queryTypes headerTypes,
      c.Assembled op o path query header queryTypes headerTypes := by
  unfold build at run
  obtain ⟨parameters, grouped, run⟩ := Traced.bind_eq_ok run
  have run := Traced.record_eq_ok run
  obtain ⟨body, request, run⟩ := Traced.bind_eq_ok run
  obtain ⟨answer, responses, run⟩ := Traced.bind_eq_ok run
  obtain ⟨path, inPath, run⟩ := Traced.bind_eq_ok run
  obtain ⟨⟨queryTypes, query⟩, inQuery, run⟩ := Traced.bind_eq_ok run
  obtain ⟨⟨headerTypes, header⟩, inHeader, run⟩ := Traced.bind_eq_ok run
  obtain ⟨_, -, run⟩ := Traced.bind_eq_ok run
  obtain ⟨text, -, run⟩ := Traced.bind_eq_ok run
  cases run
  exact ⟨path, query, header, queryTypes, headerTypes, rfl, rfl, rfl, grouped, request, responses,
    inPath, inQuery, inHeader, rfl, rfl, rfl⟩

theorem textOf_eq_ok {v : Value} {s : String} (run : textOf v = .ok s) : v = .str s := by
  unfold textOf at run
  split at run
  · exact congrArg Value.str (Except.ok.inj run)
  · cases run

/-- What a contract takes over: the name that it is built under, and the path of its operation. -/
theorem build_keeps {name : String} {op : Operation} {o : Override} {c : Contract}
    (run : (build name op o).result = .ok c) :
    c.name = name ∧ op.path = .str c.path ∧ c.route = Naming.templateRoute c.path := by
  unfold build at run
  obtain ⟨parameters, -, run⟩ := Traced.bind_eq_ok run
  have run := Traced.record_eq_ok run
  obtain ⟨body, -, run⟩ := Traced.bind_eq_ok run
  obtain ⟨answer, -, run⟩ := Traced.bind_eq_ok run
  obtain ⟨slots, -, run⟩ := Traced.bind_eq_ok run
  obtain ⟨⟨queryTypes, query⟩, -, run⟩ := Traced.bind_eq_ok run
  obtain ⟨⟨headerTypes, header⟩, -, run⟩ := Traced.bind_eq_ok run
  obtain ⟨_, -, run⟩ := Traced.bind_eq_ok run
  obtain ⟨path, read, run⟩ := Traced.bind_eq_ok run
  have written : Value.atom op.path = .str path := textOf_eq_ok read
  cases run
  exact ⟨rfl, Value.atom.inj written, rfl⟩

end Contract

theorem Operation.contract_eq_ok {op : Operation} {o : Override} {c : Contract}
    (run : (op.contract o).result = .ok c) :
    ∃ path query header queryTypes headerTypes,
      c.Assembled op o path query header queryTypes headerTypes := by
  unfold contract at run
  obtain ⟨name, -, run⟩ := Traced.bind_eq_ok run
  obtain ⟨result, built, run⟩ := Traced.bind_eq_ok run
  cases result with
  | error failure => cases run
  | ok contract =>
      cases run
      exact Contract.build_eq_ok (Except.ok.inj built)

theorem Operation.contract_path {op : Operation} {o : Override} {c : Contract}
    (run : (op.contract o).result = .ok c) :
    op.path = .str c.path ∧ c.route = Naming.templateRoute c.path := by
  unfold contract at run
  obtain ⟨name, -, run⟩ := Traced.bind_eq_ok run
  obtain ⟨result, built, run⟩ := Traced.bind_eq_ok run
  cases result with
  | error failure => cases run
  | ok contract =>
      cases run
      exact (Contract.build_keeps (Except.ok.inj built)).2

namespace Contract

theorem textOf_failsOnly {reasons : Failure → Prop} (shape : reasons .illShaped) (v : Value) :
    (textOf v).FailsOnly reasons := by
  unfold textOf
  split
  · exact .ok _
  · exact .error shape

/-! ## Roles -/

theorem pathSlot_eq_ok {p : Parameter} {slot : Slot} (run : pathSlot p = .ok slot) :
    slot.role = .path ∧ slot.type = p.type.text := by
  unfold pathSlot at run
  obtain ⟨name, -, run⟩ := Attempt.bind_eq_ok run
  cases run
  exact ⟨rfl, rfl⟩

/-- A group of parameters has one slot and one declaration for it, or neither. -/
theorem groupPart_eq_ok {typeName slotName : String} {role : Role} {members : List Parameter}
    {declarations : List Declaration} {slots : List Slot}
    (run : groupPart typeName slotName role members = .ok (declarations, slots)) :
    ∀ slot ∈ slots, slot.role = role ∧ ∃ d ∈ declarations, slot.type = d.name := by
  unfold groupPart at run
  split at run
  · cases run
    intro slot member
    cases member
  · obtain ⟨declaration, -, run⟩ := Attempt.bind_eq_ok run
    cases run
    intro slot member
    rw [List.mem_singleton.mp member]
    exact ⟨rfl, declaration, List.mem_singleton_self _, rfl⟩

theorem properties_eq_ok {members : List Parameter} {texts : List String}
    (run : members.mapM property = .ok texts) :
    ∃ names, List.Forall₂ (fun p name => p.name = .str name) members names ∧
      texts = List.zipWith Parameter.memberText names members := by
  have each := Attempt.mapM_eq_ok run
  clear run
  induction each with
  | nil => exact ⟨[], .nil, rfl⟩
  | cons first _ ih =>
      obtain ⟨names, named, spelled⟩ := ih
      obtain ⟨name, read, made⟩ := Attempt.bind_eq_ok first
      cases made
      refine ⟨name :: names, .cons (textOf_eq_ok read) named, ?_⟩
      rw [spelled]
      rfl

/-- A group of parameters that is not empty has one declaration, which is the type of its slot. -/
theorem groupPart_groups {typeName slotName : String} {role : Role} {members : List Parameter}
    {declarations : List Declaration} {slots : List Slot}
    (run : groupPart typeName slotName role members = .ok (declarations, slots)) :
    members = [] ∧ declarations = [] ∧ slots = [] ∨
      members ≠ [] ∧ ∃ d names, declarations = [d] ∧ d.name = typeName ∧ d.Groups members names ∧
        slots = [⟨role, slotName, typeName, members.all Parameter.optional, none⟩] := by
  unfold groupPart at run
  split at run
  · rename_i empty
    cases run
    exact Or.inl ⟨List.isEmpty_iff.mp empty, rfl, rfl⟩
  · rename_i some
    have some : members ≠ [] := mt List.isEmpty_iff.mpr some
    obtain ⟨declaration, declared, run⟩ := Attempt.bind_eq_ok run
    obtain ⟨texts, properties, declared⟩ := Attempt.bind_eq_ok declared
    obtain ⟨names, named, spelled⟩ := properties_eq_ok properties
    cases declared
    cases run
    refine Or.inr ⟨some, _, names, rfl, rfl, ⟨named, ?_⟩, rfl⟩
    have listed : texts ≠ [] := by
      intro none
      rw [none] at spelled
      cases named with
      | nil => exact some rfl
      | cons _ _ => cases spelled
    rw [← spelled, TypeExpr.objectText, if_neg (mt List.isEmpty_iff.mp listed)]

theorem bodyPart_role {name : String} {o : Override} {body : Body} :
    ∀ slot ∈ (bodyPart name o body).2.1, slot.role = .body := by
  unfold bodyPart
  split
  · intro slot member
    cases member
  · intro slot member
    rw [List.mem_singleton.mp member]

theorem optionsSlot_role {o : Override} : ∀ slot ∈ optionsSlot o, slot.role = .options := by
  intro slot member
  unfold optionsSlot at member
  split at member
  · split at member
    · rw [List.mem_singleton.mp member]
    · split at member
      · rw [List.mem_singleton.mp member]
      · cases member
  · cases member

/-! ## Parameters by location -/

/-- The parameter is declared for the location. -/
def IsFor (l : Location) (p : RawParameter) : Prop := p.location = .str l.name

instance (l : Location) : DecidablePred (IsFor l) :=
  fun p => inferInstanceAs (Decidable (p.location = _))

theorem IsFor.unique {l l' : Location} {p : RawParameter} (here : IsFor l p) (there : IsFor l' p) :
    l = l' := by
  have same : l.name = l'.name := Scalar.str.inj (Value.atom.inj (here.symm.trans there))
  cases l <;> cases l' <;> first | rfl | exact absurd same (by decide)

/-- The parameter is declared for the path. -/
def IsInPath (p : RawParameter) : Prop := p.location = .str Location.path.name

instance : DecidablePred IsInPath := fun p => inferInstanceAs (Decidable (p.location = _))

/-- A parameter of a contract is a parameter with a name, with the type that this one has. -/
def Normalizes (o : Override) (p : RawParameter) (q : Parameter) : Prop :=
  p.name.truthy = true ∧ p.normalize o.useDates = .ok q

/-- A parameter of a contract has the name that it was declared with, and is not unnamed. -/
def Keeps (p : RawParameter) (q : Parameter) : Prop := q.name = p.name ∧ p.name.truthy = true

theorem normalize_name {useDates : Bool} {p : RawParameter} {q : Parameter}
    (run : p.normalize useDates = .ok q) : q.name = p.name := by
  unfold RawParameter.normalize at run
  obtain ⟨source, -, run⟩ := Attempt.bind_eq_ok run
  obtain ⟨type, -, run⟩ := Attempt.bind_eq_ok run
  cases run
  rfl

theorem Normalizes.keeps {o : Override} {p : RawParameter} {q : Parameter}
    (normalizes : Normalizes o p q) : Keeps p q :=
  ⟨normalize_name normalizes.2, normalizes.1⟩

theorem inLocation_add (g : ParameterGroups) (q : Parameter) (l l' : Location) :
    (g.add q l).inLocation l' =
      g.inLocation l' ++ (if l = l' then [q] else []) := by
  cases l <;> cases l' <;> simp [ParameterGroups.add, ParameterGroups.inLocation]

/-- A parameter is added to those of its location. -/
theorem groupOne_eq_ok {o : Override} {g g' : ParameterGroups} {p : RawParameter}
    (run : groupOne o g p = .ok g') :
    ∃ l q, IsFor l p ∧ Normalizes o p q ∧ g' = g.add q l := by
  unfold groupOne at run
  split at run
  · rename_i location at_
    split at run
    · cases run
    · rename_i place known
      split at run
      · cases run
      · rename_i named
        rw [Bool.not_eq_true', Bool.not_eq_false] at named
        obtain ⟨q, normalized, run⟩ := Attempt.bind_eq_ok run
        cases run
        have located : p.location = .str place.name := by
          split at known
          · have same := List.find?_some known
            rw [at_, of_decide_eq_true same]
          · cases known
        exact ⟨place, q, located, ⟨named, normalized⟩, rfl⟩
  · cases run

/-- The parameters of each location are added to it, in order. -/
theorem foldlM_groupOne {o : Override} {parameters : List RawParameter} {g g' : ParameterGroups}
    (run : parameters.foldlM (groupOne o) g = .ok g') (l : Location) :
    ∃ later, g'.inLocation l = g.inLocation l ++ later ∧
      List.Forall₂ (Normalizes o) (parameters.filter fun p => IsFor l p) later := by
  induction parameters generalizing g with
  | nil =>
      cases run
      exact ⟨[], (List.append_nil _).symm, .nil⟩
  | cons first rest ih =>
      rw [List.foldlM_cons] at run
      obtain ⟨g₁, one, run⟩ := Attempt.bind_eq_ok run
      obtain ⟨later, grouped, each⟩ := ih run
      obtain ⟨place, q, located, normalizes, rfl⟩ := groupOne_eq_ok one
      rw [inLocation_add, List.append_assoc] at grouped
      refine ⟨_, grouped, ?_⟩
      by_cases here : place = l
      · subst here
        rw [if_pos rfl, List.filter_cons_of_pos (by simpa using located)]
        exact .cons normalizes each
      · rw [if_neg here, List.filter_cons_of_neg (by simpa using mt located.unique here)]
        exact each

theorem foldlM_groupOne_located {o : Override} {parameters : List RawParameter}
    {g g' : ParameterGroups} (run : parameters.foldlM (groupOne o) g = .ok g') :
    ∀ p ∈ parameters, ∃ l, IsFor l p := by
  induction parameters generalizing g with
  | nil => exact fun p member => by cases member
  | cons first rest ih =>
      rw [List.foldlM_cons] at run
      obtain ⟨g₁, one, run⟩ := Attempt.bind_eq_ok run
      obtain ⟨place, q, located, -⟩ := groupOne_eq_ok one
      exact List.forall_mem_cons.mpr ⟨⟨place, located⟩, ih run⟩

section Assembled

variable {op : Operation} {o : Override} {c : Contract} {path query header : List Slot}
  {queryTypes headerTypes : List Declaration}

theorem Assembled.path_role (built : c.Assembled op o path query header queryTypes headerTypes) :
    ∀ slot ∈ path, slot.role = .path ∧ ∃ p ∈ c.parameters.path, slot.type = p.type.text := by
  intro slot member
  obtain ⟨p, there, run⟩ := exists_of_mem_right (Attempt.mapM_eq_ok built.inPath) member
  obtain ⟨role, type⟩ := pathSlot_eq_ok run
  exact ⟨role, p, there, type⟩

/-- The parameters of a contract at a location are those of its operation, in order. -/
theorem Assembled.parametersAt
    (built : c.Assembled op o path query header queryTypes headerTypes) (l : Location) :
    List.Forall₂ (Normalizes o) (op.parameters.filter fun p => IsFor l p)
      (c.parameters.inLocation l) := by
  obtain ⟨later, same, each⟩ := foldlM_groupOne built.grouped l
  have start : ParameterGroups.inLocation {} l = [] := by cases l <;> rfl
  rw [start, List.nil_append] at same
  rwa [same]

/-- The path parameters of a contract are those of its operation, in order. -/
theorem Assembled.pathParameters
    (built : c.Assembled op o path query header queryTypes headerTypes) :
    List.Forall₂ Keeps (op.parameters.filter fun p => IsInPath p) c.parameters.path :=
  (built.parametersAt .path).imp fun _ _ => Normalizes.keeps

/-- Every slot but that of the request options comes from the part of its role. -/
theorem Assembled.mem_front (built : c.Assembled op o path query header queryTypes headerTypes)
    {slot : Slot} (member : slot ∈ path ++ query ++ header ++ (bodyPart c.name o c.body).2.1) :
    slot.role = .path ∧ slot ∈ path ∨ slot.role = .query ∧ slot ∈ query ∨
      slot.role = .header ∧ slot ∈ header ∨
      slot.role = .body ∧ slot ∈ (bodyPart c.name o c.body).2.1 := by
  simp only [List.mem_append] at member
  obtain ((inPath | inQuery) | inHeader) | inBody := member
  · exact Or.inl ⟨(built.path_role slot inPath).1, inPath⟩
  · exact Or.inr (Or.inl ⟨(groupPart_eq_ok built.inQuery slot inQuery).1, inQuery⟩)
  · exact Or.inr (Or.inr (Or.inl ⟨(groupPart_eq_ok built.inHeader slot inHeader).1, inHeader⟩))
  · exact Or.inr (Or.inr (Or.inr ⟨bodyPart_role slot inBody, inBody⟩))

/-- A declaration groups query parameters or headers, or is the type of the body. -/
theorem Assembled.declaration_cases
    (built : c.Assembled op o path query header queryTypes headerTypes) {d : Declaration}
    (member : d ∈ c.declarations) :
    (d.name = Naming.pascal c.name ++ "Params" ∧ ∃ names, d.Groups c.parameters.query names) ∨
      (d.name = Naming.pascal c.name ++ "Headers" ∧ ∃ names, d.Groups c.parameters.header names) ∨
      d.name = Naming.pascal c.name ++ "Body" := by
  have group : ∀ {typeName slotName : String} {role : Role} {members : List Parameter}
      {declarations : List Declaration} {slots : List Slot},
      groupPart typeName slotName role members = .ok (declarations, slots) → d ∈ declarations →
        d.name = typeName ∧ ∃ names, d.Groups members names := by
    intro typeName slotName role members declarations slots run among
    rcases groupPart_groups run with ⟨-, rfl, -⟩ | ⟨-, d', names, rfl, name, groups, -⟩
    · cases among
    · obtain rfl := List.mem_singleton.mp among
      exact ⟨name, names, groups⟩
  rw [built.declarations, List.mem_append, List.mem_append] at member
  rcases member with (inQuery | inHeader) | inBody
  · exact Or.inl (group built.inQuery inQuery)
  · exact Or.inr (Or.inl (group built.inHeader inHeader))
  · refine Or.inr (Or.inr ?_)
    unfold bodyPart at inBody
    split at inBody
    · cases inBody
    · dsimp only at inBody
      split at inBody
      · cases inBody
      · rw [List.mem_singleton.mp inBody]

/-- The request options stand behind all other slots. -/
theorem Assembled.slots_eq (built : c.Assembled op o path query header queryTypes headerTypes) :
    ∃ front, c.surface.slots = front ++ optionsSlot o ∧ ∀ slot ∈ front, slot.role ≠ .options := by
  refine ⟨_, built.slots, fun slot member options => ?_⟩
  obtain ⟨role, -⟩ | ⟨role, -⟩ | ⟨role, -⟩ | ⟨role, -⟩ := built.mem_front member
  all_goals
    rw [role] at options
    cases options

end Assembled

end Contract

end ClientForge
