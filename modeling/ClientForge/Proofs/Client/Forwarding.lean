/-
# ClientForge.Proofs.Client.Forwarding -- hooks call request functions as these are declared

The parameters of a request function, those of the hook around it, what the hook takes out of
its options, and the arguments that it passes on are derived one by one from a contract.  They
fit together: a hook passes one argument for every slot of the request function, in order
(`callArguments_eq`), and has every variable that it passes -- as a parameter, as what the
caller's trigger sends, or out of its options, which are taken apart for exactly that
(`hook_forwards`).  The key function is called with its own parameters.

What carries this is that a contract has a slot for request options exactly where a hook has
options to hand on (`Assembled.optionsSlot_eq`), and that no other slot has that role
(`Assembled.isOptions_iff`).
-/
import ClientForge.Client.Swr
import ClientForge.Proofs.Contract.Slots
import ClientForge.Proofs.Text.Within

namespace ClientForge

set_option autoImplicit false

open Text (Within)

/-! ## Parameter lists -/

/-- A text that declares a parameter of the name. -/
def DeclaresParameter (name part : String) : Prop :=
  ∃ type, part = name ++ ": " ++ type ∨ part = name ++ "?: " ++ type

theorem Slot.render_declares (slot : Slot) (later : List Slot) :
    DeclaresParameter slot.name (slot.render later) := by
  unfold Slot.render
  split
  · exact ⟨_, Or.inl rfl⟩
  · split
    · exact ⟨slot.renderedType ++ " | undefined", Or.inl String.append_assoc⟩
    · exact ⟨_, Or.inr rfl⟩

/-- A parameter list declares the names of its slots, in order. -/
theorem Surface.parts_declare (s : Surface) :
    List.Forall₂ DeclaresParameter s.names s.parts := by
  unfold Surface.names Surface.parts
  induction s.slots with
  | nil => exact .nil
  | cons slot later ih => exact .cons (slot.render_declares later) ih

theorem Surface.mem_only {s : Surface} {roles : List Role} {slot : Slot} :
    slot ∈ (s.only roles).slots ↔ slot ∈ s.slots ∧ slot.role ∈ roles := by
  simp [Surface.only]

theorem Surface.mem_without {s : Surface} {roles : List Role} {slot : Slot} :
    slot ∈ (s.without roles).slots ↔ slot ∈ s.slots ∧ slot.role ∉ roles := by
  simp [Surface.without]

/-! ## Arguments -/

namespace Contract

/-- The member of the hook's options that holds the request options. -/
def transportMember (c : Contract) : String := if c.mutator.isSome then "request" else "axios"

/-- The variable that holds them. -/
def transportVariable (c : Contract) : String :=
  if c.mutator.isSome then "requestOptions" else "axiosOptions"

/-- What a hook of a kind passes for a slot of the request function. -/
def passedFor (c : Contract) (kind : VerbKind) (slot : Slot) : String :=
  match slot.role with
  | .options => c.transportVariable
  | .body => if kind = .mutation then "arg" else slot.name
  | _ => slot.name

theorem passedFor_eq (c : Contract) (kind : VerbKind) {slot : Slot} (other : slot.role ≠ .options) :
    c.passedFor kind slot = callArgument kind slot := by
  unfold passedFor callArgument
  cases role : slot.role with
  | options => exact absurd role other
  | body => by_cases mutates : kind = .mutation <;> simp [mutates]
  | _ => simp

section Built

variable {op : Operation} {o : Override} {c : Contract} {path query header : List Slot}
  {queryTypes headerTypes : List Declaration}

/-! ## Request options -/

/-- What a contract hands on, where callers may pass request options: those of axios or, if it
takes any, those of the mutator. -/
theorem transportOptions_eq_some {t : TransportOptions} :
    c.transportOptions? = some t ↔ c.override.takesRequestOptions = true ∧
      (c.mutator = none ∧ t = .axios ∨
        ∃ m, c.mutator = some m ∧ m.hasSecondArg = true ∧ t = .mutator m) := by
  unfold transportOptions?
  cases c.override.takesRequestOptions with
  | false => simp
  | true =>
      cases c.mutator with
      | none => simp [@eq_comm _ t]
      | some m => cases second : m.hasSecondArg <;> simp [second, @eq_comm _ t]

theorem names_of_transportOptions {t : TransportOptions} (given : c.transportOptions? = some t) :
    t.member = c.transportMember ∧ t.name = c.transportVariable := by
  unfold transportMember transportVariable
  obtain ⟨-, ⟨none, rfl⟩ | ⟨m, mutator, -, rfl⟩⟩ := transportOptions_eq_some.mp given
  · rw [none]
    exact ⟨rfl, rfl⟩
  · rw [mutator]
    exact ⟨rfl, rfl⟩

/-- The slot for what a contract hands on. -/
def optionsSlotFor (t : TransportOptions) : Slot := ⟨.options, "options", t.type, true, none⟩

/-- The slot for request options is the one for what the contract hands on. -/
theorem Assembled.optionsSlot_eq
    (built : c.Assembled op o path query header queryTypes headerTypes) :
    optionsSlot o = (c.transportOptions?.map optionsSlotFor).toList := by
  unfold optionsSlot transportOptions?
  rw [built.override, built.mutator]
  split
  · cases o.mutator with
    | none => rfl
    | some m =>
        dsimp only
        split <;> rfl
  · rfl

/-- A parameter carries request options exactly if it is for what the contract hands on. -/
theorem Assembled.isOptions_iff
    (built : c.Assembled op o path query header queryTypes headerTypes) {slot : Slot} :
    slot ∈ c.surface.slots ∧ slot.role = .options ↔
      ∃ t, c.transportOptions? = some t ∧ slot = optionsSlotFor t := by
  obtain ⟨front, slots, others⟩ := built.slots_eq
  rw [slots, built.optionsSlot_eq, List.mem_append, Option.mem_toList, Option.map_eq_some_iff]
  constructor
  · rintro ⟨inFront | ⟨t, given, rfl⟩, role⟩
    · exact absurd role (others slot inFront)
    · exact ⟨t, given, rfl⟩
  · rintro ⟨t, given, rfl⟩
    exact ⟨Or.inr ⟨t, given, rfl⟩, rfl⟩

/-! ## One argument for every slot -/

/-- A hook passes one argument for every slot, in the order of the slots. -/
theorem Assembled.callArguments_eq
    (built : c.Assembled op o path query header queryTypes headerTypes) (kind : VerbKind) :
    c.callArguments kind = c.surface.slots.map (c.passedFor kind) := by
  obtain ⟨front, slots, others⟩ := built.slots_eq
  have first : (c.surface.without [.options]).slots = front := by
    have none : (optionsSlot o).filter (fun slot => !([Role.options].contains slot.role)) = [] := by
      refine List.filter_eq_nil_iff.mpr fun slot member => ?_
      simp [optionsSlot_role slot member]
    have all : front.filter (fun slot => !([Role.options].contains slot.role)) = front := by
      refine List.filter_eq_self.mpr fun slot member => ?_
      simpa using others slot member
    unfold Surface.without
    rw [slots, List.filter_append, none, all, List.append_nil]
  have same : front.map (callArgument kind) = front.map (c.passedFor kind) :=
    List.map_congr_left fun slot member => (c.passedFor_eq kind (others slot member)).symm
  unfold callArguments
  rw [first, slots, List.map_append, same, built.optionsSlot_eq]
  cases given : c.transportOptions? with
  | none => rfl
  | some t => simp [passedFor, optionsSlotFor, (names_of_transportOptions given).2]

/-- There are request options to pass exactly where there is something to hand on. -/
theorem Assembled.exists_options
    (built : c.Assembled op o path query header queryTypes headerTypes) :
    (∃ slot ∈ c.surface.slots, slot.role = .options) ↔ c.transportOptions?.isSome = true := by
  rw [Option.isSome_iff_exists]
  constructor
  · rintro ⟨slot, member, role⟩
    obtain ⟨t, given, -⟩ := built.isOptions_iff.mp ⟨member, role⟩
    exact ⟨t, given⟩
  · rintro ⟨t, given⟩
    exact ⟨_, built.isOptions_iff.mpr ⟨t, given, rfl⟩⟩

end Built

end Contract

/-! ## Hooks -/

/-- A key function starts with its name and its parameters. -/
theorem KeyFunction.head_within (k : KeyFunction) :
    Within ("export const " ++ k.name ++ " = (" ++ String.intercalate ", " k.surface.parts ++
      ") => [") k.render :=
  ((Within.refl _).left _).left _

namespace Hook

theorem within_render {h : Hook} {line : String} (member : line ∈ h.bodyLines) :
    Within line h.render := by
  unfold Hook.render
  refine .intercalate "\n" ?_
  exact List.mem_append_left _ (List.mem_append_right _ member)

/-- The line of the function that sends the request. -/
def senderLine (h : Hook) (call : String) : String :=
  "  const swrFn = (" ++ h.senderParameters ++ ") => " ++ call ++ ";"

/-- The line of the key. -/
def keyLine (key : String) : String :=
  "  const swrKey = swrOptions?.swrKey ?? (() => (isEnabled ? " ++ key ++ " : null));"

/-- The line that takes the options apart. -/
def unpackingLine (members : List String) : String :=
  "  const " ++ bracedList members ++ " = options ?? \x7b\x7d;"

theorem parameter_within {h : Hook} {part : String} (member : part ∈ h.surface.parts) :
    Within ("  " ++ part ++ ",") h.render := by
  unfold Hook.render
  refine .intercalate "\n" ?_
  refine List.mem_append_left _ (List.mem_append_left _ (List.mem_append_left _ ?_))
  refine List.mem_append_right _ ?_
  exact List.mem_map.mpr ⟨part, List.mem_append_left _ member, rfl⟩

theorem senderLine_mem (h : Hook) : h.senderLine h.call.render ∈ h.bodyLines :=
  List.mem_append_right _ (List.mem_cons_of_mem _ (List.mem_cons_of_mem _ List.mem_cons_self))

theorem keyLine_mem (h : Hook) : keyLine h.key.call.render ∈ h.bodyLines :=
  List.mem_append_right _ (List.mem_cons_of_mem _ List.mem_cons_self)

/-- A hook of a contract that calls the request function with its own signature. -/
structure Forwards (h : Hook) (c : Contract) (kind : VerbKind) : Prop where
  /-- There is one argument for every slot of the request function, in order. -/
  call : h.call = ⟨c.name, c.surface.slots.map fun slot => .named (c.passedFor kind slot), false⟩
  sender : Within (h.senderLine (c.name ++ "(" ++
    String.intercalate ", " (c.surface.slots.map (c.passedFor kind)) ++ ")")) h.render
  /-- Request options that are passed are taken out of the options. -/
  unpacked : (∃ slot ∈ c.surface.slots, slot.role = .options) →
    Within (unpackingLine ["swr: swrOptions", c.transportMember ++ ": " ++ c.transportVariable])
      h.render ∧ ∃ type, h.optionsParameter = "options?: " ++ type
  /-- Otherwise the hook takes out its own settings, or nothing. -/
  kept : (∀ slot ∈ c.surface.slots, slot.role ≠ .options) →
    h.optionsLines = [] ∨ h.optionsLines = [unpackingLine ["swr: swrOptions"], ""]
  /-- The body of a change is what the caller's trigger sends. -/
  sent : kind = .mutation → ∀ slot, c.surface.first? .body = some slot →
    h.senderParameters = "_key: Key, \x7b arg \x7d: \x7b arg: " ++ slot.renderedType ++ " \x7d"
  /-- Everything else that is passed is a parameter of the hook. -/
  parameters : ∀ slot ∈ c.surface.slots, slot.role ≠ .options →
    ¬ (kind = .mutation ∧ slot.role = .body) →
    c.passedFor kind slot = slot.name ∧ slot ∈ h.surface.slots
  /-- The hook declares its parameters under the names of its slots. -/
  declared : List.Forall₂ DeclaresParameter h.surface.names h.surface.parts ∧
    ∀ part ∈ h.surface.parts, Within ("  " ++ part ++ ",") h.render
  /-- The key function is called with its own parameters, which the hook has. -/
  key : h.key = c.keyFunction ∧
    Within (keyLine (h.key.name ++ "(" ++ String.intercalate ", " h.key.surface.names ++ ")"))
      h.render ∧
    Within ("export const " ++ h.key.name ++ " = (" ++
      String.intercalate ", " h.key.surface.parts ++ ") => [") h.key.render ∧
    List.Forall₂ DeclaresParameter h.key.surface.names h.key.surface.parts ∧
    ∀ slot ∈ h.key.surface.slots, slot ∈ h.surface.slots

end Hook

namespace Contract

variable {op : Operation} {o : Override} {c : Contract} {path query header : List Slot}
  {queryTypes headerTypes : List Declaration}

theorem Assembled.unpacks (built : c.Assembled op o path query header queryTypes headerTypes)
    (kind : VerbKind) (passed : ∃ slot ∈ c.surface.slots, slot.role = .options) :
    Within (Hook.unpackingLine
        ["swr: swrOptions", c.transportMember ++ ": " ++ c.transportVariable])
      (c.hook kind).render ∧ ∃ type, (c.hook kind).optionsParameter = "options?: " ++ type := by
  obtain ⟨t, given⟩ := Option.isSome_iff_exists.mp (built.exists_options.mp passed)
  obtain ⟨member, variable_⟩ := names_of_transportOptions given
  have takes : (c.hook kind).takesRequestOptions = true := (transportOptions_eq_some.mp given).1
  have line : (c.hook kind).optionsLines = [Hook.unpackingLine
      ["swr: swrOptions", c.transportMember ++ ": " ++ c.transportVariable], ""] := by
    have given : (c.hook kind).transport = some t := given
    rw [Hook.optionsLines, if_pos takes, given, ← member, ← variable_]
    rfl
  constructor
  · refine Hook.within_render (List.mem_append_left _ ?_)
    rw [line]
    exact List.mem_cons_self
  · exact ⟨_, if_pos takes⟩

theorem Assembled.keeps (built : c.Assembled op o path query header queryTypes headerTypes)
    (kind : VerbKind) (none : ∀ slot ∈ c.surface.slots, slot.role ≠ .options) :
    (c.hook kind).optionsLines = [] ∨
      (c.hook kind).optionsLines = [Hook.unpackingLine ["swr: swrOptions"], ""] := by
  have absent : (c.hook kind).transport = .none := by
    show c.transportOptions? = .none
    rw [← Option.not_isSome_iff_eq_none, ← built.exists_options]
    rintro ⟨slot, member, role⟩
    exact none slot member role
  by_cases takes : (c.hook kind).takesRequestOptions = true
  · refine Or.inr ?_
    rw [Hook.optionsLines, if_pos takes, absent]
    rfl
  · exact Or.inl (if_neg takes)

/-- The request function of a contract has its name and its parameters. -/
theorem request_eq_ok {profile : Profile} {f : RequestFunction}
    (run : c.request profile = .ok f) :
    f.name = c.name ∧ f.surface = c.surface ∧
      match c.mutator with
      | none => f.result = some c.answer.success ∧ f.call = c.axiosCall profile
      | some m => f.result = none ∧ c.mutatorCall m = .ok f.call := by
  unfold request at run
  obtain ⟨form, -, run⟩ := Attempt.bind_eq_ok run
  cases mutator : c.mutator with
  | none =>
      rw [mutator] at run
      cases run
      exact ⟨rfl, rfl, rfl, rfl⟩
  | some m =>
      rw [mutator] at run
      obtain ⟨call, called, run⟩ := Attempt.bind_eq_ok run
      cases run
      exact ⟨rfl, rfl, rfl, called⟩

theorem client_of_hooked {profile : Profile} {f : RequestFunction} {kind : VerbKind}
    (request : c.request profile = .ok f) (hooked : VerbKind.ofVerb? c.verb = some kind) :
    (Flavor.Swr.client profile c).result =
      .ok ⟨f.render ++ "\n\n" ++ Flavor.Swr.hookText c kind,
        c.imports ++ c.mutatorImports true⟩ := by
  have lifted : (liftM (c.request profile) : Traced RequestFunction).result = .ok f := request
  unfold Flavor.Swr.client
  rw [Traced.bind_ok lifted, hooked]
  rfl

/-- Everything that a hook passes and does not make up is one of its parameters. -/
theorem hook_parameter (kind : VerbKind) {slot : Slot} (member : slot ∈ c.surface.slots)
    (other : slot.role ≠ .options) (unsent : ¬ (kind = .mutation ∧ slot.role = .body)) :
    c.passedFor kind slot = slot.name ∧ slot ∈ (c.hook kind).surface.slots := by
  constructor
  · rw [c.passedFor_eq kind other]
    exact if_neg unsent
  · refine Surface.mem_without.mpr ⟨member, ?_⟩
    by_cases mutates : kind = .mutation
    · have unsent : slot.role ≠ .body := fun role => unsent ⟨mutates, role⟩
      simp [mutates, other, unsent]
    · simp [mutates, other]

/-- The parameters of a key function are parameters of the hook as well. -/
theorem hook_keyParameter (kind : VerbKind) {slot : Slot}
    (member : slot ∈ (c.hook kind).key.surface.slots) : slot ∈ (c.hook kind).surface.slots := by
  obtain ⟨there, role⟩ := Surface.mem_only.mp member
  have role : slot.role = .path ∨ slot.role = .query := by simpa using role
  refine (hook_parameter kind there ?_ ?_).2
  · rcases role with same | same <;> simp [same]
  · rintro ⟨-, body⟩
    rcases role with same | same <;> simp [same] at body

theorem hook_sends {slot : Slot} (body : c.surface.first? .body = some slot) :
    (c.hook .mutation).senderParameters =
      "_key: Key, \x7b arg \x7d: \x7b arg: " ++ slot.renderedType ++ " \x7d" := by
  have sent : (c.hook .mutation).argumentType = some slot.renderedType := by
    show (c.surface.first? .body).map Slot.renderedType = _
    rw [body]
    rfl
  rw [Hook.senderParameters, sent]

/-- A call that passes names is written with these names. -/
theorem render_call (callee : String) (names : List String) :
    (Call.mk callee (names.map .named) false).render =
      callee ++ "(" ++ String.intercalate ", " names ++ ")" := by
  have same : (names.map CallArgument.named).map CallArgument.render = names := by
    rw [List.map_map]
    exact List.map_id names
  simp only [Call.render, same]
  rfl

/-- **A hook calls its request function with the function's own signature.**  The contract's
surface is the parameter list of the request function; the hook passes an argument for each
of its slots, in order, and each of these arguments is at hand in the hook.  The code of the
operation is the request function, the key function and this hook. -/
theorem hook_forwards {kind : VerbKind} (built : (op.contract o).result = .ok c)
    (hooked : VerbKind.ofVerb? c.verb = some kind) :
    (c.hook kind).Forwards c kind ∧
      ∀ profile f, c.request profile = .ok f → f.name = c.name ∧ f.surface = c.surface ∧
        ((Flavor.swr profile).client c).result =
          .ok ⟨f.render ++ "\n\n" ++ Flavor.Swr.hookText c kind,
            c.imports ++ c.mutatorImports true⟩ := by
  obtain ⟨path, query, header, queryTypes, headerTypes, built⟩ := Operation.contract_eq_ok built
  have call : (c.hook kind).call =
      ⟨c.name, (c.surface.slots.map (c.passedFor kind)).map .named, false⟩ := by
    rw [← built.callArguments_eq kind]
    rfl
  refine ⟨?_, fun profile f request => ?_⟩
  · constructor
    case call => rw [call, List.map_map]; rfl
    case sender =>
      rw [← render_call, ← call]
      exact Hook.within_render (c.hook kind).senderLine_mem
    case unpacked => exact built.unpacks kind
    case kept => exact built.keeps kind
    case sent =>
      rintro rfl slot body
      exact hook_sends body
    case parameters => exact fun slot member => hook_parameter kind member
    case declared =>
      exact ⟨Surface.parts_declare _, fun part member => Hook.parameter_within member⟩
    case key =>
      refine ⟨rfl, ?_, ?_, Surface.parts_declare _, fun slot => hook_keyParameter kind⟩
      · rw [← render_call]
        exact Hook.within_render (c.hook kind).keyLine_mem
      · exact (c.hook kind).key.head_within
  · obtain ⟨name, surface, -⟩ := request_eq_ok request
    exact ⟨name, surface, client_of_hooked request hooked⟩

/-- An operation with a parameter in the path, one in the query, and a body. -/
def renamePet : Operation where
  verb := .put
  path := .str "/pets/\x7bpetId\x7d"
  id := some (.str "renamePet")
  parameters := [
    ⟨.str "petId", .str "path", true, some (.object [("type", .str "string")]), [], none, none⟩,
    ⟨.str "notify", .str "query", false, some (.object [("type", .str "boolean")]), [], none, none⟩]
  requestBody := some
    ⟨true, [⟨.str "application/json", some (.object [("type", .str "string")])⟩]⟩
  responses := []
  extensions := []

theorem hook_forwards_rename :
    ∃ c, (renamePet.contract {}).result = .ok c ∧ VerbKind.ofVerb? c.verb = some .mutation ∧
      c.surface.names = ["petId", "params", "renamePetBody", "options"] ∧
      c.surface.slots.map (c.passedFor .mutation) = ["petId", "params", "arg", "axiosOptions"] ∧
      (c.hook .mutation).Forwards c .mutation := by
  have runs : ∃ c, (renamePet.contract {}).result = .ok c ∧
      VerbKind.ofVerb? c.verb = some .mutation ∧
      c.surface.names = ["petId", "params", "renamePetBody", "options"] ∧
      c.surface.slots.map (c.passedFor .mutation) = ["petId", "params", "arg", "axiosOptions"] :=
    ⟨_, rfl, rfl, rfl, rfl⟩
  obtain ⟨c, built, hooked, names, passed⟩ := runs
  exact ⟨c, built, hooked, names, passed, (hook_forwards built hooked).1⟩

end Contract

end ClientForge
