/-
# ClientForge.Proofs.Client.Delivery -- arguments reach the transport

A request function hands on what it is passed.  The parameters of the query and the headers
arrive, with the caller's entries of the same kind behind them where axios takes any; the body
arrives as data, or the form that is built from it; the request options arrive but for what the
function sets itself; and the route shows the value of every path parameter that it has a place
for (`request_delivers`).

The settings of a call to axios are one object whose assignments stand in a fixed order
(`Assembled.axiosEntries_assign`), so what arrives is decided by what stands behind.  The body is
an exception: axios is told of it only for the verbs whose requests have one.
-/
import ClientForge.Proofs.Client.Evaluation
import ClientForge.Proofs.Client.Scopes

namespace ClientForge

set_option autoImplicit false

open Assignments (lastOf?)

namespace Contract

/-- The names of the parameters in the path, as the path spells them. -/
def placeholders (c : Contract) : List String :=
  (Naming.parameterNames (Naming.routeParts none c.path.toList)).map String.ofList

/-- The verbs for which the transport is told of a body; a mutator is told for all of them. -/
def sendsBody (c : Contract) : Bool :=
  c.mutator.isSome || [.post, .put, .patch, .delete].contains c.verb

/-- What arrives of a group of parameters: axios finds the caller's entries of its kind behind
those of the group. -/
def groupValue (c : Contract) (ρ : Environment) (key : String) (group : RunValue) : RunValue :=
  if c.mutator.isNone && c.override.takesRequestOptions then
    group.overlaid ((ρ "options").get key)
  else group

/-- The request options: those of every request, and behind them the caller's. -/
def givenOptions (c : Contract) (ρ : Environment) : RunValue :=
  (RunValue.literal (.map c.override.presetOptions)).overlaid
    (if c.transportOptions?.isSome then ρ "options" else .undefined)

/-- The variable that the settings of axios hold as the body. -/
def settingsData? (c : Contract) : Option String := if c.verb = .delete then c.dataName? else none

/-- The request options that a request function replaces. -/
def ownKeys (c : Contract) : List String :=
  if c.mutator.isSome then []
  else ((c.slotName? .query).map fun _ => "params").toList ++
    ((c.slotName? .header).map fun _ => "headers").toList ++
    (c.settingsData?.map fun _ => "data").toList

/-- What stands in a place of the path is the path parameter of that name, unless it is called like
the variable for a form. -/
def Shows (c : Contract) (f : RequestFunction) (ρ : Environment) (placeholder : String)
    (v : RunValue) : Prop :=
  ∀ slot ∈ c.surface.slots, slot.role = .path → slot.name = Naming.camel placeholder →
    slot.name ∉ f.ownNames → v = ρ slot.name

/-- A transport is told what a request function is passed. -/
structure Delivers (c : Contract) (f : RequestFunction) (ρ : Environment) (d : Delivery) :
    Prop where
  /-- Every place of the path shows the parameter that it is for, where it is a place for a template
  literal too. -/
  route : Naming.isLiteral (Naming.routeParts none c.path.toList) = true →
    Naming.variables? c.route = some (c.placeholders.map Naming.camel) ∧
      ∃ values, d.url = .template c.route values ∧
        List.Forall₂ (c.Shows f ρ) c.placeholders values
  query : ∀ slot ∈ c.surface.slots, slot.role = .query →
    d.params = c.groupValue ρ "params" (ρ slot.name)
  /-- No header is lost; a mutator may find a content type in front of them. -/
  headers : ∀ slot ∈ c.surface.slots, slot.role = .header → ∀ key v,
    (c.groupValue ρ "headers" (ρ slot.name)).member? key = some v →
      d.headers.member? key = some v
  body : c.sendsBody = true → ∀ slot ∈ c.surface.slots, slot.role = .body →
    d.data = f.sent (ρ slot.name)
  /-- For other verbs axios is told what the request options say. -/
  unsent : c.sendsBody = false → d.data = (c.givenOptions ρ).get "data"
  options : ∀ key, key ∉ c.ownKeys → d.options.member? key = (c.givenOptions ρ).member? key

/-- What a transport is told, by the variables at the call. -/
structure Tells (c : Contract) (ρ : Environment) (d : Delivery) : Prop where
  url : d.url = ρ.template c.route
  query : ∀ name, c.slotName? .query = some name → d.params = c.groupValue ρ "params" (ρ name)
  headers : ∀ name, c.slotName? .header = some name → ∀ key v,
    (c.groupValue ρ "headers" (ρ name)).member? key = some v → d.headers.member? key = some v
  body : c.sendsBody = true → ∀ name, c.dataName? = some name → d.data = ρ name
  unsent : c.sendsBody = false → d.data = (c.givenOptions ρ).get "data"
  options : ∀ key, key ∉ c.ownKeys → d.options.member? key = (c.givenOptions ρ).member? key

section Built

variable {op : Operation} {o : Override} {c : Contract} {path query header : List Slot}
  {queryTypes headerTypes : List Declaration} {ρ : Environment}

/-! ## Variables at the call -/

theorem environment_eq {f : RequestFunction} {name : String} (other : name ∉ f.ownNames) :
    f.environment ρ name = ρ name := by
  refine RequestFunction.environment_other (fun form made same => other ?_) ρ
  unfold RequestFunction.ownNames
  rw [made, same]
  exact List.mem_singleton_self _

/-- A form is not called like a group of parameters or the request options. -/
theorem fixed_notOwn (f : RequestFunction) :
    ∀ name ∈ ["params", "headers", "options"], name ∉ f.ownNames := by
  have each : ∀ kind : FormKind, ∀ name ∈ ["params", "headers", "options"],
      name ∉ [kind.name] := by
    intro kind
    cases kind <;> decide
  unfold RequestFunction.ownNames
  cases f.form with
  | none => decide
  | some form => exact each form.kind

/-- The variable that is sent holds the body, or the form that is built from it. -/
theorem Assembled.environment_data
    (built : c.Assembled op o path query header queryTypes headerTypes) {profile : Profile}
    {f : RequestFunction} (request : c.request profile = .ok f) {slot : Slot}
    (member : slot ∈ c.surface.slots) (role : slot.role = .body) :
    ∃ name, c.dataName? = some name ∧ f.environment ρ name = f.sent (ρ slot.name) := by
  have made := request_form request
  have body : c.slotName? .body = some slot.name :=
    role ▸ built.slotName?_eq member (by simp [role])
  unfold form? at made
  unfold dataName?
  rw [body] at made ⊢
  unfold RequestFunction.environment RequestFunction.sent
  cases form : FormBody.kind? c.body with
  | none =>
      rw [form] at made
      rw [← Except.ok.inj made]
      exact ⟨slot.name, rfl, rfl⟩
  | some kind =>
      rw [form] at made
      obtain ⟨form, built, some⟩ := Attempt.map_eq_ok made
      obtain ⟨same, source⟩ := FormBody.ofSchema_eq_ok built
      rw [← some]
      exact ⟨kind.name, rfl, by simp [same, source]⟩

theorem groupValue_environment (f : RequestFunction) (key : String) (group : RunValue) :
    c.groupValue (f.environment ρ) key group = c.groupValue ρ key group := by
  unfold groupValue
  rw [environment_eq (fixed_notOwn f _ (by decide))]

theorem givenOptions_environment (f : RequestFunction) :
    c.givenOptions (f.environment ρ) = c.givenOptions ρ := by
  unfold givenOptions
  rw [environment_eq (fixed_notOwn f _ (by decide))]

theorem Assembled.isNameOf (built : c.Assembled op o path query header queryTypes headerTypes)
    {role : Role} {name : String} (found : c.slotName? role = some name) :
    c.IsNameOf name role := by
  obtain ⟨slot, member, rfl, rfl⟩ := exists_of_slotName? found
  exact built.name_of_role member

/-! ## Axios -/

/-- The members of the settings of axios that a request function sets behind the options. -/
def ownAssignments (c : Contract) (ρ : Environment) : Assignments :=
  ((c.slotName? .query).map fun name => ("params", c.groupValue ρ "params" (ρ name))).toList ++
    ((c.slotName? .header).map fun name => ("headers", c.groupValue ρ "headers" (ρ name))).toList ++
    (c.settingsData?.map fun name => ("data", ρ name)).toList

/-- What the settings of a call to axios assign, in order. -/
theorem Assembled.axiosEntries_assign
    (built : c.Assembled op o path query header queryTypes headerTypes)
    (plain : c.mutator = none) : CallEntry.assignAll ρ c.axiosEntries =
      (c.givenOptions ρ).members ++ c.ownAssignments ρ := by
  have group : ∀ {key : String} {name? : Option String}, (∀ name, name? = some name → name = key) →
      CallEntry.assignAll ρ ((name?.map (groupEntry c.override.takesRequestOptions key)).toList) =
        (name?.map fun name => (key, c.groupValue ρ key (ρ name))).toList := by
    intro key name? called
    cases name? with
    | none => rfl
    | some name =>
        obtain rfl := called name rfl
        unfold groupValue
        rw [plain]
        cases c.override.takesRequestOptions <;> rfl
  have options : CallEntry.assignAll ρ
      (if c.override.takesRequestOptions then [.spread "options"] else []) =
        (if c.transportOptions?.isSome then ρ "options" else .undefined).members := by
    unfold transportOptions?
    rw [plain]
    cases c.override.takesRequestOptions with
    | false => rfl
    | true => exact List.append_nil _
  have data : CallEntry.assignAll ρ
      (if c.verb = .delete then (c.dataName?.map CallEntry.data).toList else []) =
        (c.settingsData?.map fun name => ("data", ρ name)).toList := by
    unfold settingsData?
    split
    · cases c.dataName? <;> rfl
    · rfl
  have query : ∀ name, c.slotName? .query = some name → name = "params" :=
    fun _ => built.isNameOf
  have headers : ∀ name, c.slotName? .header = some name → name = "headers" :=
    fun _ => built.isNameOf
  unfold axiosEntries ownAssignments givenOptions
  simp only [CallEntry.assignAll_append, CallEntry.assignAll_presets, group query, group headers,
    options, data, RunValue.overlaid, RunValue.members, List.append_assoc]

/-- The settings are the last argument, which may be missing. -/
theorem axiosCall_settings (c : Contract) (profile : Profile) :
    (c.axiosCall profile).arguments[if axiosTakesBody c.verb then 2 else 1]? =
      (axiosConfig c.axiosEntries).head? := by
  have single : ∀ entries, axiosConfig entries = [] ∨ ∃ a, axiosConfig entries = [a] := by
    intro entries
    unfold axiosConfig
    split
    · exact Or.inl rfl
    · exact Or.inr ⟨_, rfl⟩
    · exact Or.inr ⟨_, rfl⟩
  rw [axiosTakesBody_eq]
  unfold axiosCall axiosData
  rcases single c.axiosEntries with none | ⟨a, some⟩
  · rw [none]
    cases sendsBodyAsArgument c.verb <;> cases c.dataName? <;> rfl
  · rw [some]
    cases sendsBodyAsArgument c.verb <;> cases c.dataName? <;> rfl

/-- A member of the settings is what is assigned to it last. -/
theorem axiosConfig_member? (entries : List CallEntry) (key : String) :
    ((((axiosConfig entries).head?).map (CallArgument.value ρ)).getD .undefined).member? key =
      lastOf? key (CallEntry.assignAll ρ entries) := by
  unfold axiosConfig
  split
  · rfl
  · rename_i name
    have spread : CallEntry.assignAll ρ [.spread name] = (ρ name).members := List.append_nil _
    rw [spread]
    rfl
  · rfl

theorem ownAssignments_keys (plain : c.mutator = none) :
    (c.ownAssignments ρ).map Prod.fst = c.ownKeys := by
  unfold ownAssignments ownKeys
  rw [plain]
  cases c.slotName? .query <;> cases c.slotName? .header <;> cases c.settingsData? <;> rfl

theorem Assembled.toAxios_tells
    (built : c.Assembled op o path query header queryTypes headerTypes)
    (plain : c.mutator = none) (profile : Profile) :
    c.Tells ρ ((c.axiosCall profile).toAxios ρ c.verb) := by
  generalize told : (c.axiosCall profile).toAxios ρ c.verb = d
  have member (key : String) : d.options.member? key =
      (lastOf? key (c.ownAssignments ρ)).or ((c.givenOptions ρ).member? key) := by
    have last := axiosConfig_member? (ρ := ρ) c.axiosEntries key
    rw [built.axiosEntries_assign plain, Assignments.lastOf?_append,
      ← axiosCall_settings c profile] at last
    rw [← told]
    exact last
  have own (key : String) := member key
  unfold ownAssignments at own
  simp only [Assignments.lastOf?_append, Assignments.lastOf?_optional] at own
  have data (together : axiosTakesBody c.verb = false) : d.data = d.options.get "data" := by
    rw [← told]
    unfold Call.toAxios
    simp only [together, Bool.false_eq_true, if_false]
  constructor
  case url =>
    rw [← told]
    rfl
  case query =>
    intro name found
    have params : d.params = d.options.get "params" := told ▸ rfl
    rw [params, RunValue.get, own]
    simp [found]
  case headers =>
    intro name found key v some
    have headers : d.headers = d.options.get "headers" := told ▸ rfl
    rw [headers, RunValue.get, own]
    simpa [found] using some
  case body =>
    intro sends name some
    cases apart : axiosTakesBody c.verb with
    | true =>
        rw [← told]
        unfold Call.toAxios Call.argument
        simp only [apart, if_true]
        rw [axiosTakesBody_eq] at apart
        unfold axiosCall axiosData
        simp [apart, some, CallArgument.value]
    | false =>
        have deletes : c.verb = .delete := by
          unfold sendsBody at sends
          rw [plain] at sends
          revert sends apart
          cases c.verb <;> decide
        rw [data apart, RunValue.get, own]
        simp [settingsData?, deletes, some]
  case unsent =>
    intro unsent
    unfold sendsBody at unsent
    rw [plain] at unsent
    have together : axiosTakesBody c.verb = false ∧ c.verb ≠ .delete := by
      revert unsent
      cases c.verb <;> decide
    rw [data together.1, RunValue.get, own]
    simp [settingsData?, together.2, RunValue.get]
  case options =>
    intro key other
    rw [member, Assignments.lastOf?_eq_none]
    · rfl
    · rwa [ownAssignments_keys plain]

/-! ## Mutators -/

/-- The headers that a mutator is told. -/
def describedHeaders? (ρ : Environment) (contentType name : Option String) : Option RunValue :=
  if contentType.isNone && name.isNone then none
  else some (.object ((contentType.map fun t => ("Content-Type", .literal (.str t))).toList ++
    (name.map fun n => (ρ n).members).getD []))

/-- What the object assigns that describes a request. -/
theorem Assembled.mutatorCall_assign
    (built : c.Assembled op o path query header queryTypes headerTypes) {m : Mutator} {call : Call}
    (run : c.mutatorCall m = .ok call) :
    ∃ contentType entries, call.arguments = .object entries :: c.mutatorOptions m ∧
      CallEntry.assignAll ρ entries =
        [("url", ρ.template c.route), ("method", .literal (.str c.verb.name))] ++
          ((describedHeaders? ρ contentType (c.slotName? .header)).map
            fun v => ("headers", v)).toList ++
          (c.dataName?.map fun name => ("data", ρ name)).toList ++
          ((c.slotName? .query).map fun name => ("params", ρ name)).toList := by
  unfold mutatorCall at run
  obtain ⟨contentType, -, run⟩ := Attempt.bind_eq_ok run
  cases run
  refine ⟨contentType, _, rfl, ?_⟩
  have headers : CallEntry.assignAll ρ (headerEntries contentType (c.slotName? .header)) =
      ((describedHeaders? ρ contentType (c.slotName? .header)).map
        fun v => ("headers", v)).toList := by
    unfold headerEntries describedHeaders?
    split <;> rfl
  have data : CallEntry.assignAll ρ (c.dataName?.map .data).toList =
      (c.dataName?.map fun name => ("data", ρ name)).toList := by
    cases c.dataName? <;> rfl
  have query : CallEntry.assignAll ρ ((c.slotName? .query).map .shorthand).toList =
      ((c.slotName? .query).map fun name => ("params", ρ name)).toList := by
    cases found : c.slotName? .query with
    | none => rfl
    | some name =>
        obtain rfl : name = "params" := built.isNameOf found
        rfl
  simp only [CallEntry.assignAll_append, headers, data, query]
  rfl

/-- A mutator is passed the request options, where it takes any. -/
theorem mutatorOptions_members {m : Mutator} (mutator : c.mutator = some m) :
    ((((c.mutatorOptions m)[0]?).map (CallArgument.value ρ)).getD .undefined).members =
      (c.givenOptions ρ).members := by
  have handed : c.transportOptions?.isSome =
      (c.override.takesRequestOptions && m.hasSecondArg) := by
    unfold transportOptions?
    rw [mutator]
    dsimp only
    cases c.override.takesRequestOptions <;> cases m.hasSecondArg <;> rfl
  unfold mutatorOptions givenOptions
  rw [handed]
  cases takes : c.override.takesRequestOptions with
  | false =>
      have nothing : c.override.presetOptions = [] := by
        unfold Override.takesRequestOptions at takes
        unfold Override.presetOptions
        split at takes
        · rfl
        · cases takes
      rw [nothing]
      rfl
  | true =>
      cases presets : c.override.presetOptions with
      | nil => cases m.hasSecondArg <;> rfl
      | cons first rest =>
          have all := CallEntry.assignAll_presets ρ (first :: rest)
          cases m.hasSecondArg with
          | false => exact all.trans (List.append_nil _).symm
          | true =>
              have options : CallEntry.assignAll ρ [.spread "options"] = (ρ "options").members :=
                List.append_nil _
              show CallEntry.assignAll ρ (CallEntry.presets (first :: rest) ++ _) = _
              rw [CallEntry.assignAll_append, all, options]
              rfl

theorem Assembled.toMutator_tells
    (built : c.Assembled op o path query header queryTypes headerTypes) {m : Mutator}
    (mutator : c.mutator = some m) {call : Call} (run : c.mutatorCall m = .ok call) :
    c.Tells ρ (call.toMutator ρ) := by
  obtain ⟨contentType, entries, arguments, assigned⟩ := built.mutatorCall_assign (ρ := ρ) run
  have described (key : String) : (call.argument ρ 0).get key =
      (lastOf? key (CallEntry.assignAll ρ entries)).getD .undefined := by
    unfold Call.argument
    rw [arguments]
    rfl
  simp only [assigned, Assignments.lastOf?_append, Assignments.lastOf?_optional] at described
  have plain (key : String) (group : RunValue) : c.groupValue ρ key group = group := by
    unfold groupValue
    rw [mutator]
    rfl
  constructor
  case url =>
    have url : lastOf? "url" [("url", ρ.template c.route),
        ("method", .literal (.str c.verb.name))] = some (ρ.template c.route) := rfl
    show (call.argument ρ 0).get "url" = _
    rw [described]
    cases describedHeaders? ρ contentType (c.slotName? .header) <;>
      simp [url, Assignments.lastOf?_other]
  case query =>
    intro name found
    show (call.argument ρ 0).get "params" = _
    rw [described, plain]
    simp [found]
  case headers =>
    intro name found key v some
    have told : describedHeaders? ρ contentType (c.slotName? .header) =
        Option.some (.object ((contentType.map fun t =>
          ("Content-Type", .literal (.str t))).toList ++ (ρ name).members)) := by
      rw [found]
      simp [describedHeaders?]
    rw [plain] at some
    have last : lastOf? key (ρ name).members = Option.some v := some
    show ((call.argument ρ 0).get "headers").member? key = _
    rw [described]
    simp [told, last]
  case body =>
    intro _ name found
    show (call.argument ρ 0).get "data" = _
    rw [described]
    simp [found]
  case unsent =>
    intro unsent
    unfold sendsBody at unsent
    rw [mutator] at unsent
    cases unsent
  case options =>
    intro key _
    have members := mutatorOptions_members (ρ := ρ) mutator
    show lastOf? key (call.argument ρ 1).members = lastOf? key (c.givenOptions ρ).members
    unfold Call.argument
    rw [arguments, List.getElem?_cons_succ, members]

/-! ## Requests -/

/-- A template literal for the path has the value of each of its parameters in its place. -/
theorem template_route (f : RequestFunction) (written : c.route = Naming.templateRoute c.path)
    (literal : Naming.isLiteral (Naming.routeParts none c.path.toList) = true) :
    Naming.variables? c.route = some (c.placeholders.map Naming.camel) ∧
      ∃ values, (f.environment ρ).template c.route = .template c.route values ∧
        List.Forall₂ (c.Shows f ρ) c.placeholders values := by
  have names : Naming.variables? c.route = some (c.placeholders.map Naming.camel) := by
    rw [written, Naming.variables?_of_isLiteral literal, placeholders, List.map_map]
    rfl
  refine ⟨names, c.placeholders.map fun p => f.environment ρ (Naming.camel p), ?_, ?_⟩
  · unfold Environment.template
    rw [names, Option.getD_some, List.map_map]
    rfl
  · rw [List.forall₂_map_right_iff, List.forall₂_same]
    intro placeholder _ slot _ _ name other
    rw [← name]
    exact environment_eq other

theorem Assembled.delivers
    (built : c.Assembled op o path query header queryTypes headerTypes) {profile : Profile}
    {f : RequestFunction} (request : c.request profile = .ok f)
    (written : c.route = Naming.templateRoute c.path) :
    c.Delivers f ρ (c.delivery f ρ) := by
  have tells : c.Tells (f.environment ρ) (c.delivery f ρ) := by
    obtain ⟨-, -, call⟩ := request_eq_ok request
    unfold delivery
    cases mutator : c.mutator with
    | none =>
        rw [mutator] at call
        rw [call.2]
        exact built.toAxios_tells mutator profile
    | some m =>
        rw [mutator] at call
        exact built.toMutator_tells mutator call.2
  have found {slot : Slot} (member : slot ∈ c.surface.slots) {role : Role} (is : slot.role = role)
      (single : role ≠ .path) : c.slotName? role = some slot.name :=
    is ▸ built.slotName?_eq member (is ▸ single)
  constructor
  case route =>
    intro literal
    rw [tells.url]
    exact template_route f written literal
  case query =>
    intro slot member role
    have name := found member role (by decide)
    have fixed := fixed_notOwn f slot.name
      (by simp [show slot.name = "params" from built.isNameOf name])
    rw [tells.query _ name, environment_eq fixed, groupValue_environment]
  case headers =>
    intro slot member role key v some
    have name := found member role (by decide)
    have fixed := fixed_notOwn f slot.name
      (by simp [show slot.name = "headers" from built.isNameOf name])
    refine tells.headers _ name key v ?_
    rwa [environment_eq fixed, groupValue_environment]
  case body =>
    intro sends slot member role
    obtain ⟨name, sent, value⟩ := built.environment_data (ρ := ρ) request member role
    rw [tells.body sends name sent, value]
  case unsent =>
    intro unsent
    rw [tells.unsent unsent, givenOptions_environment]
  case options =>
    intro key other
    rw [tells.options key other, givenOptions_environment]

end Built

/-- A change with an argument of every kind. -/
def changeOperation : Value :=
  documentOf [("/pets/\x7bpet-id\x7d", "put", [
    ("operationId", .str "changePet"),
    ("parameters", .list [textParameter "pet-id" "path", textParameter "reason" "query",
      textParameter "X-Trace" "header"]),
    ("requestBody", textBody "application/json"), ("responses", .object [])])]

/-- A search with a body, a path with a backslash, and a form beside a path parameter that is
called like it. -/
def droppedArguments : Value :=
  documentOf [
    ("/search", "get", [
      ("operationId", .str "search"), ("requestBody", textBody "application/json"),
      ("responses", .object [])]),
    ("/files/\\\x7bname\x7d", "get", [
      ("operationId", .str "getFile"), ("parameters", .list [textParameter "name" "path"]),
      ("responses", .object [])]),
    clashingForm]

end Contract

end ClientForge
