/-
# ClientForge.Proofs.Client.Mentions -- symbols of packages in the code of an operation

The code of an operation mentions what it uses of a package: a request function that calls
axios says so, and names the type of the answer; parameters and hooks name the types of their
options; a hook names the function that it is built on.  Each of these names stands alone
where it is written, so it does in the whole code.
-/
import ClientForge.Proofs.Client.Forwarding

namespace ClientForge

set_option autoImplicit false

open Text (Within StandsAlone)

/-! ## Request functions -/

namespace RequestFunction

theorem head_within (f : RequestFunction) : Within f.head f.render :=
  .intercalate "\n" List.mem_cons_self

theorem callLine_within (f : RequestFunction) :
    Within ("  return " ++ f.call.render ++ ";") f.render :=
  .intercalate "\n" (List.mem_cons_of_mem _ (List.mem_append_right _ List.mem_cons_self))

theorem parameter_within {f : RequestFunction} {part : String} (member : part ∈ f.surface.parts) :
    Within ("  " ++ part ++ ",\n") f.render := by
  have some : f.surface.parts.isEmpty = false := by
    cases parts : f.surface.parts with
    | nil =>
        rw [parts] at member
        cases member
    | cons first rest => rfl
  have signature : Within ("  " ++ part ++ ",\n") (signatureText f.surface) := by
    unfold signatureText
    dsimp only
    rw [some]
    have line : Within ("  " ++ part ++ ",\n")
        (String.join (f.surface.parts.map fun part => "  " ++ part ++ ",\n")) :=
      .join (List.mem_map.mpr ⟨part, member, rfl⟩)
    exact (line.right "(\n").left ")"
  have head : Within (signatureText f.surface) f.head :=
    (((Within.refl _).right _).left _).left _
  exact signature.trans (head.trans f.head_within)

end RequestFunction

/-- The last slot is declared for itself. -/
theorem Surface.last_mem_parts (front : List Slot) (slot : Slot) :
    slot.render [] ∈ Surface.partsOf (front ++ [slot]) := by
  induction front with
  | nil => exact List.mem_cons_self
  | cons first rest ih => exact List.mem_cons_of_mem _ ih

/-! ## Hooks -/

namespace Hook

theorem optionsParameter_within (h : Hook) :
    Within ("  " ++ h.optionsParameter ++ ",") h.render := by
  unfold Hook.render
  refine .intercalate "\n" ?_
  refine List.mem_append_left _ (List.mem_append_left _ (List.mem_append_left _ ?_))
  refine List.mem_append_right _ (List.mem_map.mpr ⟨h.optionsParameter, ?_, rfl⟩)
  exact List.mem_append_right _ (List.mem_singleton_self _)

theorem typeLines_within {h : Hook} {line : String} (member : line ∈ h.typeLines) :
    Within line h.render := by
  unfold Hook.render
  refine .intercalate "\n" ?_
  refine List.mem_append_left _ (List.mem_append_left _ (List.mem_append_left _ ?_))
  exact List.mem_append_left _ (List.mem_append_left _ member)

/-- The parameter of a hook for its options holds the type of the hook's own. -/
theorem optionsType_within (h : Hook) :
    ∃ name, Within (name ++ " " ++ h.optionsType) h.optionsParameter := by
  unfold optionsParameter bracedList
  split
  · refine ⟨"swr?:", Within.right (Within.left (Within.right ?_ _) _) _⟩
    exact .intercalate ", " List.mem_cons_self
  · exact ⟨"swrOptions?:", .refl _⟩

theorem mentions_options (h : Hook) :
    StandsAlone h.kind.configurationType h.render ∧ StandsAlone "Key" h.render := by
  obtain ⟨name, typed⟩ := h.optionsType_within
  have parameter : Within h.optionsParameter h.render :=
    (((Within.refl _).right _).left _).trans h.optionsParameter_within
  have whole := typed.trans parameter
  constructor
  · refine StandsAlone.within ?_ whole
    refine ⟨' ', '<', by decide +kernel, by decide +kernel, ?_⟩
    refine Within.across_end (Within.across_start (Within.across_start ?_ _) _) _
    cases h.kind <;> decide +kernel
  · have type : StandsAlone "Key" ", TError> & \x7b swrKey?: Key, enabled?: boolean \x7d" :=
      ⟨' ', ',', by decide +kernel, by decide +kernel, by decide +kernel⟩
    exact type.within (((Within.refl _).right _).right _ |>.trans whole)

/-- A hook that hands options on to axios names their type. -/
theorem mentions_transport {h : Hook} (takes : h.takesRequestOptions = true)
    (axios : h.transport = some .axios) : StandsAlone "AxiosRequestConfig" h.render := by
  have braced : h.optionsParameter =
      "options?: " ++ bracedList ["swr?: " ++ h.optionsType, "axios?: AxiosRequestConfig"] := by
    rw [optionsParameter, if_pos takes, axios]
    rfl
  refine StandsAlone.within ?_ h.optionsParameter_within
  rw [braced]
  refine ⟨' ', ' ', by decide +kernel, by decide +kernel,
    Within.left (Within.right (Within.right ?_ _) _) _⟩
  unfold bracedList
  rw [String.intercalate_cons_cons, String.intercalate_singleton]
  have member : Within (String.ofList (' ' :: "AxiosRequestConfig".toList ++ [' ']))
      ("axios?: AxiosRequestConfig" ++ " \x7d") := by decide +kernel
  have joined := member.across_end ("swr?: " ++ h.optionsType ++ ", ")
  exact joined.across_end "\x7b "

/-- A hook names the function that it is built on. -/
theorem mentions_function (h : Hook) : StandsAlone h.kind.hookFunction h.render := by
  have line : "  const " ++ h.kind.name ++ " = " ++ h.underlying.render ++ ";" ∈ h.bodyLines := by
    refine List.mem_append_right _ (List.mem_cons_of_mem _ (List.mem_cons_of_mem _ ?_))
    exact List.mem_cons_of_mem _ (List.mem_cons_of_mem _ List.mem_cons_self)
  refine StandsAlone.within ?_ (within_render line)
  refine ⟨' ', '<', by decide +kernel, by decide +kernel, Within.left ?_ _⟩
  refine Within.across_end ?_ _
  refine Within.across_start (Within.across_start (Within.across_start ?_ _) _) _
  refine Within.across_start (Within.across_start ?_ _) _
  cases h.kind <;> decide +kernel

end Hook

/-! ## Operations without a mutator -/

namespace Contract

variable {op : Operation} {o : Override} {c : Contract} {profile : Profile} {f : RequestFunction}

/-- Without a mutator a request function calls axios, and has a type for what axios answers. -/
theorem request_mentions_axios (run : c.request profile = .ok f) (none : c.mutator = .none) :
    StandsAlone "axios" f.render ∧ StandsAlone "AxiosResponse" f.render := by
  obtain ⟨-, -, rest⟩ := request_eq_ok run
  rw [none] at rest
  obtain ⟨result, call⟩ := rest
  constructor
  · refine StandsAlone.within ?_ f.callLine_within
    refine ⟨' ', '.', by decide +kernel, by decide +kernel, Within.left ?_ _⟩
    rw [call]
    refine Within.across_start (Within.across_start (Within.across_start ?_ _) _) _
    refine Within.across_start ?_ _
    cases profile.syntheticDefaults <;> decide +kernel
  · refine StandsAlone.within ?_ f.head_within
    have type : StandsAlone "AxiosResponse" ": Promise<AxiosResponse<" :=
      ⟨'<', '<', by decide +kernel, by decide +kernel, by decide +kernel⟩
    refine type.within ?_
    unfold RequestFunction.head
    rw [result]
    exact ((((Within.refl _).left _).left _).right _).left _

/-- The request options stand last in the parameter list of a request function. -/
theorem Assembled.options_mem_parts {path query header : List Slot}
    {queryTypes headerTypes : List Declaration}
    (built : c.Assembled op o path query header queryTypes headerTypes) {t : TransportOptions}
    (given : c.transportOptions? = some t) (run : c.request profile = .ok f) :
    (optionsSlotFor t).render [] ∈ f.surface.parts := by
  obtain ⟨front, slots, -⟩ := built.slots_eq
  obtain ⟨-, surface, -⟩ := request_eq_ok run
  rw [surface, Surface.parts, slots, built.optionsSlot_eq, given]
  exact Surface.last_mem_parts front _

/-- The request options of such an operation have the type that axios gives them. -/
theorem request_mentions_options (built : (op.contract o).result = .ok c)
    (run : c.request profile = .ok f) (none : c.mutator = .none)
    (options : ∃ slot ∈ c.surface.slots, slot.role = .options) :
    StandsAlone "AxiosRequestConfig" f.render := by
  obtain ⟨path, query, header, queryTypes, headerTypes, built⟩ := Operation.contract_eq_ok built
  obtain ⟨slot, member, role⟩ := options
  obtain ⟨t, given, -⟩ := built.isOptions_iff.mp ⟨member, role⟩
  have part := built.options_mem_parts given run
  obtain ⟨-, ⟨-, rfl⟩ | ⟨m, some, -⟩⟩ := transportOptions_eq_some.mp given
  · refine StandsAlone.within ?_ (RequestFunction.parameter_within part)
    exact ⟨' ', ',', by decide +kernel, by decide +kernel, by decide +kernel⟩
  · cases none.symm.trans some

theorem hook_mentions_error (none : c.mutator = .none) (kind : VerbKind) :
    StandsAlone "AxiosError" (c.hook kind).render := by
  have line : (("export type " ++ (c.hook kind).typeStart ++ kind.typeEnding) ++ "Error = " ++
      c.errorType ++ ";") ∈ (c.hook kind).typeLines :=
    List.mem_cons_of_mem _ (List.mem_singleton_self _)
  refine StandsAlone.within ?_ (Hook.typeLines_within line)
  refine ⟨' ', '<', by decide +kernel, by decide +kernel, Within.left ?_ _⟩
  refine Within.across_end ?_ _
  unfold errorType
  rw [none]
  refine Within.across_start (Within.across_start ?_ _) _
  decide +kernel

end Contract

end ClientForge
