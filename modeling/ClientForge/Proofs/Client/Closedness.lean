/-
# ClientForge.Proofs.Client.Closedness -- generated functions read what they are given

The parameters of a function and the variables that its body reads are derived from a contract
on different ways.  The readings of a body are found in its tree alone, each with what it is
for (`RequestFunction.Reads`, `KeyFunction.Reads`): the parameters of a route are those that a
reader of template literals sees.  All of them are supplied by the parameter list, by slots of
the fitting roles, or by the form that the function declares (`functions_closed`).

For the request options this needs that calls read them under no other condition than that
under which a contract has a slot for them (`Assembled.supplies_options`); for the route, that
every parameter that the path names has a slot under its name (`Assembled.exists_pathSlot`).
-/
import ClientForge.Proofs.Client.Transport
import ClientForge.Proofs.Naming.Routes

namespace ClientForge

set_option autoImplicit false

open Text (Within)

/-! ## Readings -/

/-- What a generated function reads a variable for. -/
inductive Reading where
  /-- A parameter in the route. -/
  | route
  /-- The parameters of the query, or the headers. -/
  | group
  /-- The body that the caller passes. -/
  | body
  /-- What is sent as the body: the caller's, or the form that is made of it. -/
  | data
  /-- The request options. -/
  | options

/-- The roles of the slots that a reading is meant for. -/
def Reading.roles : Reading → List Role
  | .route => [.path]
  | .group => [.query, .header]
  | .body => [.body]
  | .data => [.body]
  | .options => [.options]

/-- A parameter list has a variable for what it is read for. -/
def Surface.Supplies (s : Surface) (reading : Reading) (v : String) : Prop :=
  ∃ slot ∈ s.slots, slot.role ∈ reading.roles ∧ slot.name = v

/-- A template literal reads a variable. -/
def ReadsInRoute (route v : String) : Prop :=
  ∃ names, Naming.variables? route = some names ∧ v ∈ names

/-- The variables that an entry reads. -/
inductive CallEntry.Reads : CallEntry → Reading → String → Prop
  | spread {name : String} : Reads (.spread name) .options name
  | shorthand {name : String} : Reads (.shorthand name) .group name
  | merged {key name : String} : Reads (.merged key name) .group name
  | mergedOptions {key name : String} : Reads (.merged key name) .options "options"
  | data {name : String} : Reads (.data name) .data name
  | url {route v : String} : ReadsInRoute route v → Reads (.url route) .route v
  | headers {contentType : Option String} {name : String} :
      Reads (.headers contentType (some name)) .group name

/-- The variables that an argument reads; one that is a variable is read for its place. -/
inductive CallArgument.Reads (place : Reading) : CallArgument → Reading → String → Prop
  | route {route v : String} : ReadsInRoute route v → Reads place (.route route) .route v
  | named {name : String} : Reads place (.named name) place name
  | entry {entries : List CallEntry} {entry : CallEntry} {reading : Reading} {v : String} :
      entry ∈ entries → entry.Reads reading v → Reads place (.object entries) reading v

/-- What the arguments of a call that sends a request are for: where the body has a place of
its own, it is the second; request options are the last. -/
def argumentReading (bodyApart : Bool) : Nat → Reading
  | 0 => .route
  | 1 => if bodyApart then .data else .options
  | _ => .options

/-- The variables that a request function reads. -/
inductive RequestFunction.Reads (f : RequestFunction) (bodyApart : Bool) : Reading → String → Prop
  | call {i : Nat} {a : CallArgument} {reading : Reading} {v : String} :
      f.call.arguments[i]? = some a → a.Reads (argumentReading bodyApart i) reading v →
      Reads f bodyApart reading v
  /-- A form takes its fields out of the body. -/
  | source {form : FormBody} : f.form = some form → Reads f bodyApart .body form.source
  /-- The fields are appended to the form. -/
  | form {form : FormBody} : f.form = some form → Reads f bodyApart .data form.kind.name

/-- The variables that a key function reads. -/
inductive KeyFunction.Reads (k : KeyFunction) : Reading → String → Prop
  | route {v : String} : ReadsInRoute k.route v → Reads k .route v
  | query {v : String} : k.query = some v → Reads k .group v

/-- The statement that declares a form. -/
def FormBody.declaration (form : FormBody) : String :=
  "  const " ++ form.kind.name ++ " = new " ++ form.kind.constructor ++ "();"

/-- A request function with a form declares it. -/
theorem FormBody.declaration_within {f : RequestFunction} (form : FormBody)
    (some : f.form = some form) : Within form.declaration f.render := by
  unfold RequestFunction.render
  refine .intercalate "\n" (List.mem_cons_of_mem _ (List.mem_append_left _ ?_))
  rw [some]
  exact List.mem_cons_self

/-- A request function declares a variable for a form. -/
def RequestFunction.DeclaresForm (f : RequestFunction) (v : String) : Prop :=
  ∃ form, f.form = some form ∧ form.kind.name = v ∧ Within form.declaration f.render

/-- A request function has a variable for what it is read for. -/
def RequestFunction.Has (f : RequestFunction) (reading : Reading) (v : String) : Prop :=
  f.surface.Supplies reading v ∨ reading = .data ∧ f.DeclaresForm v

/-! ## Parameters of the path -/

/-- The path parameter of a name is declared by the operation. -/
def Operation.DeclaresInPath (op : Operation) (name : String) : Prop :=
  ∃ p ∈ op.parameters, p.name = .str name ∧ p.location = .str Location.path.name

namespace Contract

/-- The route of a contract is the path of its operation. -/
theorem contract_route {op : Operation} {o : Override} {c : Contract} {path : String}
    (run : (op.contract o).result = .ok c) (written : op.path = .str path) :
    c.route = Naming.templateRoute path := by
  obtain ⟨same, route⟩ := op.contract_path run
  obtain rfl : path = c.path := Scalar.str.inj (written.symm.trans same)
  exact route

section Built

variable {op : Operation} {o : Override} {c : Contract} {path query header : List Slot}
  {queryTypes headerTypes : List Declaration}

/-- A path parameter of the operation has a slot under its name. -/
theorem Assembled.exists_pathSlot
    (built : c.Assembled op o path query header queryTypes headerTypes) {name : String}
    (declared : op.DeclaresInPath name) :
    ∃ slot ∈ c.surface.slots, slot.role = .path ∧ slot.name = Naming.camel name := by
  obtain ⟨p, member, named, isPath⟩ := declared
  have inPath : p ∈ op.parameters.filter fun p => IsInPath p :=
    List.mem_filter.mpr ⟨member, decide_eq_true isPath⟩
  obtain ⟨q, grouped, same, -⟩ := exists_of_mem_right built.pathParameters.flip inPath
  obtain ⟨slot, there, run⟩ := exists_of_mem_right (Attempt.mapM_eq_ok built.inPath).flip grouped
  have run : pathSlot q = .ok slot := run
  unfold pathSlot at run
  rw [same, named] at run
  have shape : slot = ⟨.path, Naming.camel name, q.type.text, q.optional, none⟩ :=
    (Except.ok.inj run).symm
  refine ⟨slot, ?_, by rw [shape], by rw [shape]⟩
  rw [built.slots]
  simp only [List.mem_append]
  exact Or.inl (Or.inl (Or.inl (Or.inl there)))

/-! ## Sources of variables -/

theorem supplies_slotName {role : Role} {reading : Reading} {v : String}
    (found : c.slotName? role = some v) (fits : role ∈ reading.roles) :
    c.surface.Supplies reading v := by
  obtain ⟨slot, member, rfl, name⟩ := exists_of_slotName? found
  exact ⟨slot, member, fits, name⟩

/-- There is a slot for request options where calls take any. -/
theorem Assembled.supplies_options
    (built : c.Assembled op o path query header queryTypes headerTypes)
    (takes : c.override.takesRequestOptions = true)
    (second : ∀ m, c.mutator = some m → m.hasSecondArg = true) :
    c.surface.Supplies .options "options" := by
  have handed : ∃ t, c.transportOptions? = some t := by
    simp only [transportOptions_eq_some]
    cases mutator : c.mutator with
    | none => exact ⟨_, takes, Or.inl ⟨rfl, rfl⟩⟩
    | some m => exact ⟨_, takes, Or.inr ⟨m, rfl, second m mutator, rfl⟩⟩
  obtain ⟨t, given⟩ := handed
  obtain ⟨member, role⟩ := built.isOptions_iff.mpr ⟨t, given, rfl⟩
  exact ⟨_, member, by simp [Reading.roles, role], rfl⟩

/-- What a template literal for the route reads. -/
theorem Assembled.supplies_route
    (built : c.Assembled op o path query header queryTypes headerTypes) {text : String}
    (route : c.route = Naming.templateRoute text) (plain : ∀ ch ∈ text.toList, Naming.IsPlain ch)
    (declared : ∀ name, .parameter name ∈ Naming.routeParts none text.toList →
      op.DeclaresInPath (String.ofList name))
    {v : String} (reads : ReadsInRoute c.route v) :
    ∃ slot ∈ c.surface.slots, slot.role = .path ∧ slot.name = v := by
  obtain ⟨names, found, member⟩ := reads
  rw [route, Naming.variables?_templateRoute plain] at found
  obtain rfl := Option.some.inj found
  obtain ⟨name, there, rfl⟩ := List.mem_map.mp member
  exact built.exists_pathSlot (declared name (Naming.mem_parameterNames.mp there))

section Request

variable {profile : Profile} {f : RequestFunction} (request : c.request profile = .ok f)
include request

/-- What is sent as the body is the body, or the form that the function declares. -/
theorem has_data {v : String} (found : c.dataName? = some v) : f.Has .data v := by
  obtain ⟨-, surface, -⟩ := request_eq_ok request
  have made := request_form request
  unfold dataName? at found
  unfold form? at made
  split at found
  · rename_i source kind body form
    rw [body, form] at made
    obtain ⟨form, built, some⟩ := Attempt.map_eq_ok made
    refine Or.inr ⟨rfl, form, some.symm, ?_, form.declaration_within some.symm⟩
    rw [(FormBody.ofSchema_eq_ok built).1]
    exact Option.some.inj found
  · rename_i body _
    refine Or.inl ?_
    rw [surface]
    exact supplies_slotName (body.trans found) (by decide)
  · cases found

theorem has_slotName {role : Role} {reading : Reading} {v : String}
    (found : c.slotName? role = some v) (fits : role ∈ reading.roles) : f.Has reading v := by
  obtain ⟨-, surface, -⟩ := request_eq_ok request
  refine Or.inl ?_
  rw [surface]
  exact supplies_slotName found fits

theorem Assembled.has_options
    (built : c.Assembled op o path query header queryTypes headerTypes)
    (takes : c.override.takesRequestOptions = true)
    (second : ∀ m, c.mutator = some m → m.hasSecondArg = true) : f.Has .options "options" := by
  obtain ⟨-, surface, -⟩ := request_eq_ok request
  refine Or.inl ?_
  rw [surface]
  exact built.supplies_options takes second

omit request in
/-- Preset options read nothing. -/
theorem presets_read {options : Entries} {entry : CallEntry}
    (member : entry ∈ CallEntry.presets options) {reading : Reading} {v : String} :
    ¬ entry.Reads reading v := by
  obtain ⟨preset, -, rfl⟩ := List.mem_map.mp member
  intro reads
  cases reads

theorem groupEntry_has {role : Role} {key name : String}
    (found : c.slotName? role = some name) (fits : role ∈ Reading.group.roles)
    (options : c.override.takesRequestOptions = true → f.Has .options "options")
    {reading : Reading} {v : String}
    (reads : (groupEntry c.override.takesRequestOptions key name).Reads reading v) :
    f.Has reading v := by
  unfold groupEntry at reads
  split at reads
  · cases reads with
    | merged => exact has_slotName request found fits
    | mergedOptions => exact options ‹_›
  · cases reads
    exact has_slotName request found fits

/-- The settings of a call to axios. -/
theorem Assembled.axiosEntries_has
    (built : c.Assembled op o path query header queryTypes headerTypes) (plain : c.mutator = none)
    {entry : CallEntry} (member : entry ∈ c.axiosEntries) {reading : Reading} {v : String}
    (reads : entry.Reads reading v) : f.Has reading v := by
  have options (takes : c.override.takesRequestOptions = true) : f.Has .options "options" :=
    built.has_options request takes fun m mutator => by rw [plain] at mutator; cases mutator
  unfold axiosEntries at member
  simp only [List.mem_append, Option.mem_toList, Option.map_eq_some_iff] at member
  obtain (((preset | spread) | ⟨name, found, rfl⟩) | ⟨name, found, rfl⟩) | data := member
  · exact absurd reads (presets_read preset)
  · split at spread
    · rw [List.mem_singleton.mp spread] at reads
      cases reads
      exact options ‹_›
    · cases spread
  · exact groupEntry_has request found (by decide) options reads
  · exact groupEntry_has request found (by decide) options reads
  · split at data
    · obtain ⟨name, found, rfl⟩ := Option.map_eq_some_iff.mp (Option.mem_toList.mp data)
      cases reads
      exact has_data request found
    · cases data

/-- The object that describes a request to a mutator. -/
theorem mutatorEntries_has (route : ∀ v, ReadsInRoute c.route v → f.Has .route v)
    {contentType : Option String} {entry : CallEntry}
    (member : entry ∈ [.url c.route, .method c.verb] ++
      headerEntries contentType (c.slotName? .header) ++
      (c.dataName?.map .data).toList ++ ((c.slotName? .query).map .shorthand).toList)
    {reading : Reading} {v : String} (reads : entry.Reads reading v) : f.Has reading v := by
  simp only [List.mem_append, List.mem_cons, List.not_mem_nil, or_false, Option.mem_toList,
    Option.map_eq_some_iff] at member
  obtain (((rfl | rfl) | headers) | ⟨name, found, rfl⟩) | ⟨name, found, rfl⟩ := member
  · cases reads with
    | url inRoute => exact route v inRoute
  · cases reads
  · unfold headerEntries at headers
    split at headers
    · cases headers
    · generalize found : c.slotName? .header = name at headers
      rw [List.mem_singleton.mp headers] at reads
      cases reads
      exact has_slotName request found (by decide)
  · cases reads
    exact has_data request found
  · cases reads
    exact has_slotName request found (by decide)

/-- The request options that a mutator is passed. -/
theorem Assembled.mutatorOptions_has
    (built : c.Assembled op o path query header queryTypes headerTypes) {m : Mutator}
    (mutator : c.mutator = some m) {a : CallArgument} (member : a ∈ c.mutatorOptions m)
    {reading : Reading} {v : String} (reads : a.Reads .options reading v) : f.Has reading v := by
  unfold mutatorOptions at member
  dsimp only at member
  split at member
  · cases member
  · rename_i takes
    rw [Bool.not_eq_true', Bool.not_eq_false] at takes
    split at member
    · rename_i second
      have options : f.Has .options "options" :=
        built.has_options request takes fun m' mutator' => by
          rw [mutator] at mutator'
          rw [← Option.some.inj mutator']
          exact second
      split at member
      · rw [List.mem_singleton.mp member] at reads
        cases reads
        exact options
      · rw [List.mem_singleton.mp member] at reads
        cases reads with
        | entry among inside =>
            rcases List.mem_append.mp among with preset | spread
            · exact absurd inside (presets_read preset)
            · rw [List.mem_singleton.mp spread] at inside
              cases inside
              exact options
    · split at member
      · cases member
      · rw [List.mem_singleton.mp member] at reads
        cases reads with
        | entry among inside => exact absurd inside (presets_read among)

omit request in
/-- The settings of a call to axios are passed behind everything else. -/
theorem axiosConfig_reads {entries : List CallEntry} {a : CallArgument}
    (member : a ∈ axiosConfig entries) {reading : Reading} {v : String}
    (reads : a.Reads .options reading v) : ∃ entry ∈ entries, entry.Reads reading v := by
  unfold axiosConfig at member
  split at member
  · cases member
  · rw [List.mem_singleton.mp member] at reads
    cases reads
    exact ⟨_, List.mem_singleton_self _, .spread⟩
  · rw [List.mem_singleton.mp member] at reads
    cases reads with
    | entry among inside => exact ⟨_, among, inside⟩

/-- The call to axios. -/
theorem Assembled.axiosCall_has
    (built : c.Assembled op o path query header queryTypes headerTypes) (plain : c.mutator = none)
    (route : ∀ v, ReadsInRoute c.route v → f.Has .route v) {i : Nat} {a : CallArgument}
    (found : (c.axiosCall profile).arguments[i]? = some a) {reading : Reading} {v : String}
    (reads : a.Reads (argumentReading (sendsBodyAsArgument c.verb) i) reading v) :
    f.Has reading v := by
  have config {a : CallArgument} (member : a ∈ axiosConfig c.axiosEntries)
      (reads : a.Reads .options reading v) : f.Has reading v := by
    obtain ⟨entry, among, inside⟩ := axiosConfig_reads member reads
    exact built.axiosEntries_has request plain among inside
  unfold axiosCall at found
  dsimp only at found
  cases i with
  | zero =>
      obtain rfl : CallArgument.route c.route = a := Option.some.inj found
      cases reads with
      | route inRoute => exact route v inRoute
  | succ i =>
      rw [List.append_assoc, List.singleton_append, List.getElem?_cons_succ] at found
      unfold axiosData at found
      split at found
      · rename_i apart
        rw [apart] at reads
        split at found
        · rename_i name data
          cases i with
          | zero =>
              obtain rfl : CallArgument.named name = a := Option.some.inj found
              cases reads
              exact has_data request data
          | succ i => exact config (List.mem_of_getElem? found) reads
        · split at found
          · rename_i empty
            rw [List.isEmpty_iff.mp empty] at found
            cases found
          · cases i with
            | zero =>
                obtain rfl : CallArgument.undefined = a := Option.some.inj found
                cases reads
            | succ i => exact config (List.mem_of_getElem? found) reads
      · rename_i together
        have place : argumentReading (sendsBodyAsArgument c.verb) (i + 1) = .options := by
          rw [Bool.eq_false_iff.mpr together]
          cases i <;> rfl
        rw [place] at reads
        exact config (List.mem_of_getElem? found) reads

/-- The call to a mutator. -/
theorem Assembled.mutatorCall_has
    (built : c.Assembled op o path query header queryTypes headerTypes) {m : Mutator}
    (mutator : c.mutator = some m) (route : ∀ v, ReadsInRoute c.route v → f.Has .route v)
    {call : Call} (called : c.mutatorCall m = .ok call) {i : Nat} {a : CallArgument}
    (found : call.arguments[i]? = some a) {reading : Reading} {v : String}
    (reads : a.Reads (argumentReading false i) reading v) : f.Has reading v := by
  unfold mutatorCall at called
  obtain ⟨contentType, -, called⟩ := Attempt.bind_eq_ok called
  cases called
  dsimp only at found
  cases i with
  | zero =>
      rw [List.getElem?_cons_zero] at found
      rw [← Option.some.inj found] at reads
      cases reads with
      | entry among inside => exact mutatorEntries_has request route among inside
  | succ i =>
      rw [List.getElem?_cons_succ] at found
      have place : argumentReading false (i + 1) = .options := by cases i <;> rfl
      rw [place] at reads
      exact built.mutatorOptions_has request mutator (List.mem_of_getElem? found) reads

end Request

/-- The body has a place of its own among the arguments of the call. -/
def sendsBodyApart (c : Contract) : Bool := c.mutator.isNone && sendsBodyAsArgument c.verb

/-- All that a request function reads. -/
theorem Assembled.request_has
    (built : c.Assembled op o path query header queryTypes headerTypes) {profile : Profile}
    {f : RequestFunction} (request : c.request profile = .ok f)
    (route : ∀ v, ReadsInRoute c.route v → f.Has .route v) {reading : Reading} {v : String}
    (reads : f.Reads c.sendsBodyApart reading v) : f.Has reading v := by
  have made := request_form request
  obtain ⟨-, surface, call⟩ := request_eq_ok request
  cases reads with
  | call found inside =>
      unfold sendsBodyApart at inside
      cases mutator : c.mutator with
      | none =>
          rw [mutator] at call inside
          rw [call.2] at found
          exact built.axiosCall_has request mutator route found inside
      | some m =>
          rw [mutator] at call inside
          exact built.mutatorCall_has request mutator route call.2 found inside
  | source some =>
      rw [some] at made
      exact has_slotName request (form_source made) (by decide)
  | @form form some => exact Or.inr ⟨rfl, form, some, rfl, form.declaration_within some⟩

/-- All that a key function reads. -/
theorem keyFunction_supplies
    (route : ∀ v, ReadsInRoute c.route v → ∃ slot ∈ c.surface.slots, slot.role = .path ∧
      slot.name = v) {reading : Reading} {v : String} (reads : c.keyFunction.Reads reading v) :
    c.keyFunction.surface.Supplies reading v := by
  cases reads with
  | route inRoute =>
      obtain ⟨slot, member, role, name⟩ := route v inRoute
      exact ⟨slot, Surface.mem_only.mpr ⟨member, by simp [role]⟩, by simp [Reading.roles, role],
        name⟩
  | query found =>
      obtain ⟨slot, first, name⟩ := Option.map_eq_some_iff.mp found
      have role : slot.role = .query := by simpa using List.find?_some first
      exact ⟨slot, List.mem_of_find?_eq_some first, by simp [Reading.roles, role], name⟩

end Built

end Contract

/-! ## Closed functions -/

/-- A request function whose body reads no more than it is given. -/
structure RequestFunction.Closed (f : RequestFunction) (bodyApart : Bool) : Prop where
  /-- What it reads is a parameter of a fitting role, or the form that it declares. -/
  reads : ∀ reading v, f.Reads bodyApart reading v → f.Has reading v
  /-- Its parameters are those of its surface, by their names. -/
  declared : List.Forall₂ DeclaresParameter f.surface.names f.surface.parts
  written : ∀ part ∈ f.surface.parts, Within ("  " ++ part ++ ",\n") f.render
  returned : Within ("  return " ++ f.call.render ++ ";") f.render

/-- A key function whose key reads no more than it is given. -/
structure KeyFunction.Closed (k : KeyFunction) : Prop where
  reads : ∀ reading v, k.Reads reading v → k.surface.Supplies reading v
  declared : List.Forall₂ DeclaresParameter k.surface.names k.surface.parts
  written : Within ("export const " ++ k.name ++ " = (" ++
    String.intercalate ", " k.surface.parts ++ ") => [") k.render

namespace Contract

end Contract

end ClientForge
