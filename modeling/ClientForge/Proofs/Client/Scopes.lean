/-
# ClientForge.Proofs.Client.Scopes -- the variables of generated functions

A request function declares its parameters and, for a form, the variable that holds it.  A hook
declares its parameters, the one for its options, and what the lines of its body declare; the
function that sends the request has parameters of its own inside the hook.

The generator chooses the names of all but the parameters, and these are always the same
(`Hook.ownNames`).  They differ from one another, from the variables for groups of parameters, and
from that of a body without a model.  Variables that a document names, those of path parameters
and of a body with a model, are compared with nothing.  So a scope has a name twice, or the
sender hides an argument, exactly if the document uses such a name (`scopes_distinct_iff`).
-/
import ClientForge.Proofs.Client.Closedness
import ClientForge.Proofs.Client.Signatures

namespace ClientForge

set_option autoImplicit false

open Text (Begins Within)

/-! ## What lines declare -/

/-- How a line begins that declares variables. -/
def declarationStart : String := "  const "

/-- The lines of a body, and the variables that they declare, in order. -/
inductive DeclareInOrder : List String → List String → Prop
  | nil : DeclareInOrder [] []
  | const {name line : String} {lines names : List String} :
      Begins (declarationStart ++ name ++ " = ") line → DeclareInOrder lines names →
      DeclareInOrder (line :: lines) (name :: names)
  /-- Several variables for the members of an object. -/
  | unpacked {members : List (String × String)} {lines names : List String} :
      DeclareInOrder lines names →
      DeclareInOrder (Hook.unpackingLine (members.map fun m => m.1 ++ ": " ++ m.2) :: lines)
        (members.map Prod.snd ++ names)
  | other {line : String} {lines names : List String} : ¬ Begins declarationStart line →
      DeclareInOrder lines names → DeclareInOrder (line :: lines) names

namespace DeclareInOrder

theorem append {lines more names others : List String} (first : DeclareInOrder lines names)
    (second : DeclareInOrder more others) : DeclareInOrder (lines ++ more) (names ++ others) := by
  induction first with
  | nil => exact second
  | const begins _ ih => exact .const begins ih
  | unpacked _ ih =>
      rw [List.append_assoc]
      exact .unpacked ih
  | other nothing _ ih => exact .other nothing ih

/-- Lines that declare nothing. -/
theorem nothing {lines : List String} (each : ∀ line ∈ lines, ¬ Begins declarationStart line) :
    DeclareInOrder lines [] := by
  induction lines with
  | nil => exact .nil
  | cons line rest ih =>
      obtain ⟨here, later⟩ := List.forall_mem_cons.mp each
      exact .other here (ih later)

end DeclareInOrder

/-! ## Request functions -/

/-- A name without blanks, and what can stand behind it, are no declaration. -/
theorem not_declaration {name : String} (visible : ∀ c ∈ name.toList, c ≠ ' ') {mark : String}
    (marks : mark ∈ [".", "['"]) (rest : String) :
    ¬ Begins declarationStart ("  " ++ (name ++ (mark ++ rest))) := by
  have start : declarationStart = "  " ++ "const " := by decide
  rw [start, Begins.right_iff]
  unfold Begins
  rw [String.toList_append, String.toList_append]
  rintro ⟨behind, same⟩
  -- up to the first blank there is only the keyword on one side, and the mark on the other
  have front := congrArg (List.takeWhile (· != ' ')) same
  have keyword : ("const ".toList ++ behind).takeWhile (· != ' ') = "const".toList := rfl
  have shown : ∃ c more, mark.toList = c :: more ∧ c ≠ ' ' ∧ c ∉ "const".toList := by
    simp only [List.mem_cons, List.not_mem_nil, or_false] at marks
    rcases marks with rfl | rfl
    · exact ⟨'.', [], rfl, by decide, by decide⟩
    · exact ⟨'[', ['\''], rfl, by decide, by decide⟩
  obtain ⟨c, more, spelled, notBlank, absent⟩ := shown
  have inside : c ∈ (name.toList ++ (mark.toList ++ rest.toList)).takeWhile (· != ' ') := by
    rw [List.takeWhile_append_of_pos (by simpa using visible), spelled, List.cons_append,
      List.takeWhile_cons_of_pos (by simpa using notBlank)]
    simp
  rw [← front, keyword] at inside
  exact absent inside

namespace RequestFunction

/-- The lines behind the parameters. -/
def bodyLines (f : RequestFunction) : List String :=
  (f.form.map FormBody.lines).getD [] ++ ["  return " ++ f.call.render ++ ";"]

theorem render_eq (f : RequestFunction) :
    f.render = String.intercalate "\n" (f.head :: (f.bodyLines ++ ["\x7d;"])) := by
  unfold render bodyLines
  rw [List.append_assoc]
  rfl

/-- The variable that a request function introduces, for a form. -/
def ownNames (f : RequestFunction) : List String := (f.form.map fun form => form.kind.name).toList

/-- All variables of a request function. -/
def scope (f : RequestFunction) : List String := f.surface.names ++ f.ownNames

end RequestFunction

namespace FormField

theorem accessor_eq (source : String) (f : FormField) :
    ∃ mark ∈ [".", "['"], ∃ rest, f.accessor source = source ++ (mark ++ rest) := by
  unfold accessor
  split
  · exact ⟨".", by decide, f.name, String.append_assoc⟩
  · exact ⟨"['", by decide, f.name ++ "']", by simp only [String.append_assoc]⟩

/-- The statements for a field declare nothing. -/
theorem lines_declare {source : String} (visible : ∀ c ∈ source.toList, c ≠ ' ') (kind : FormKind)
    (f : FormField) : ∀ line ∈ f.lines kind source, ¬ Begins declarationStart line := by
  have appended : ¬ Begins declarationStart ("  " ++ f.append kind source) := by
    unfold append
    dsimp only
    split
    · obtain ⟨mark, marks, rest, same⟩ := f.accessor_eq source
      rw [same]
      simp only [String.append_assoc]
      exact not_declaration visible marks _
    · have fixed : ∀ kind : FormKind,
          ¬ Begins declarationStart ("  " ++ kind.name) ∧
            ¬ Begins ("  " ++ kind.name) declarationStart := by
        intro kind
        cases kind <;> decide
      have longer := Begins.not_left (fixed kind)
      simp only [String.append_assoc] at longer ⊢
      exact longer _
  have fixed : (¬ Begins declarationStart "  if (" ∧ ¬ Begins "  if (" declarationStart) ∧
      (¬ Begins declarationStart "    " ∧ ¬ Begins "    " declarationStart) ∧
      ¬ Begins declarationStart "  \x7d" := by decide
  unfold lines
  split
  · exact List.forall_mem_singleton.mpr appended
  · intro line member
    simp only [List.mem_cons, List.not_mem_nil, or_false] at member
    rcases member with rfl | rfl | rfl
    · rw [String.append_assoc]
      exact Begins.not_left fixed.1 _
    · exact Begins.not_left fixed.2.1 _
    · exact fixed.2.2

end FormField

/-- A form declares the variable that holds it. -/
theorem FormBody.lines_declare (form : FormBody) (visible : ∀ c ∈ form.source.toList, c ≠ ' ') :
    DeclareInOrder form.lines [form.kind.name] := by
  have first : Begins (declarationStart ++ form.kind.name ++ " = ") form.declaration := by
    have opening : Begins " = " " = new " := by decide
    exact ((opening.right _).left _).left _
  refine .const first (.nothing ?_)
  cases form.fields with
  | some fields =>
      intro line member
      obtain ⟨field, -, inside⟩ := List.mem_flatMap.mp member
      exact field.lines_declare visible form.kind line inside
  | none =>
      have fixed : ¬ Begins declarationStart "  Object.entries(" ∧
          ¬ Begins "  Object.entries(" declarationStart := by decide
      refine List.forall_mem_singleton.mpr ?_
      have longer := Begins.not_left fixed
      simp only [String.append_assoc] at longer ⊢
      exact longer _

/-- What a request function declares behind its parameters. -/
theorem RequestFunction.bodyLines_declare (f : RequestFunction)
    (visible : ∀ form, f.form = some form → ∀ c ∈ form.source.toList, c ≠ ' ') :
    DeclareInOrder f.bodyLines f.ownNames := by
  have returns : DeclareInOrder ["  return " ++ f.call.render ++ ";"] [] := by
    have fixed : ¬ Begins declarationStart "  return " ∧ ¬ Begins "  return " declarationStart := by
      decide
    refine .nothing (List.forall_mem_singleton.mpr ?_)
    rw [String.append_assoc]
    exact Begins.not_left fixed _
  unfold bodyLines ownNames
  rw [← List.append_nil (Option.toList _)]
  refine .append ?_ returns
  cases made : f.form with
  | none => exact .nil
  | some form => exact form.lines_declare (visible form made)

namespace Hook

/-- The last parameter of a hook. -/
def optionsName (h : Hook) : String := if h.takesRequestOptions then "options" else "swrOptions"

/-- The members that a hook takes out of its options, with the variables for them. -/
def unpacked (h : Hook) : List (String × String) :=
  ("swr", "swrOptions") :: (h.transport.map fun t => (t.member, t.name)).toList

/-- The variables that the lines of a hook declare. -/
def bodyNames (h : Hook) : List String :=
  (if h.takesRequestOptions then h.unpacked.map Prod.snd else []) ++
    ["isEnabled", "swrKey", "swrFn", h.kind.name]

/-- The variables that a hook introduces. -/
def ownNames (h : Hook) : List String := h.optionsName :: h.bodyNames

/-- All variables of a hook. -/
def scope (h : Hook) : List String := h.surface.names ++ h.ownNames

/-- The parameters of the function that sends the request. -/
def senderNames (h : Hook) : List String := if h.argumentType.isSome then ["_key", "arg"] else []

theorem bodyLines_declare (h : Hook) : DeclareInOrder h.bodyLines h.bodyNames := by
  have options : DeclareInOrder h.optionsLines
      (if h.takesRequestOptions then h.unpacked.map Prod.snd else []) := by
    have blank : ¬ Begins declarationStart "" := by decide
    have members :
        "swr: swrOptions" :: (h.transport.map fun t => t.member ++ ": " ++ t.name).toList =
        h.unpacked.map fun m => m.1 ++ ": " ++ m.2 := by
      have own : "swr" ++ ": " ++ "swrOptions" = "swr: swrOptions" := by decide
      unfold unpacked
      rw [List.map_cons, own]
      cases h.transport <;> rfl
    have taken := @DeclareInOrder.unpacked h.unpacked [""] [] (.other blank .nil)
    rw [List.append_nil] at taken
    unfold optionsLines
    split
    · rw [members]
      exact taken
    · exact .nil
  have opening : Begins (declarationStart ++ "isEnabled" ++ " = ") "  const isEnabled = " ∧
      Begins (declarationStart ++ "swrKey" ++ " = ")
        "  const swrKey = swrOptions?.swrKey ?? (() => (isEnabled ? " ∧
      Begins (declarationStart ++ "swrFn" ++ " = ") "  const swrFn = (" := by decide +kernel
  have rest : ∀ kind : VerbKind, ∀ line ∈ ["", "  return \x7b", "    swrKey,",
      "    ..." ++ kind.name ++ ",", "  \x7d;"], ¬ Begins declarationStart line := by
    intro kind
    cases kind <;> decide
  obtain ⟨enabled, key, sender⟩ := opening
  have underlying : Begins (declarationStart ++ h.kind.name ++ " = ")
      ("  const " ++ h.kind.name ++ " = " ++ h.underlying.render ++ ";") :=
    ((Begins.refl _).left _).left _
  refine .append options ?_
  refine .const ((enabled.left _).left _) (.const ((key.left _).left _) ?_)
  refine .const ((((sender.left _).left _).left _).left _) (.other (by decide) ?_)
  exact .const underlying (.nothing (rest h.kind))

end Hook

/-! ## Whose names meet -/

namespace Contract

/-- A slot whose variable a document names: that of a path parameter, or of a body with a model. -/
def IsNamed (c : Contract) (slot : Slot) : Prop :=
  slot.role = .path ∨ slot.role = .body ∧ c.hasModelBody = true

/-- Names that the variables of groups of parameters and of a body without a model do not have. -/
def AreOwn (own : List String) : Prop :=
  ∀ name ∈ own, name ∉ ["params", "headers"] ∧ ¬ bodyEnding <:+ name.toList

instance (own : List String) : Decidable (AreOwn own) :=
  inferInstanceAs (Decidable (∀ name ∈ own, _))

section Built

variable {op : Operation} {o : Override} {c : Contract} {path query header : List Slot}
  {queryTypes headerTypes : List Declaration}

/-- The variables that no document names. -/
theorem Assembled.name_of_unnamed
    (built : c.Assembled op o path query header queryTypes headerTypes) {slot : Slot}
    (member : slot ∈ c.surface.slots) (unnamed : ¬ c.IsNamed slot) (other : slot.role ≠ .options) :
    slot.name ∈ ["params", "headers"] ∨ bodyEnding <:+ slot.name.toList := by
  have name := built.name_of_role member
  cases role : slot.role with
  | path => exact absurd (Or.inl role) unnamed
  | options => exact absurd role other
  | query =>
      rw [role] at name
      exact Or.inl (by simp [show slot.name = "params" from name])
  | header =>
      rw [role] at name
      exact Or.inl (by simp [show slot.name = "headers" from name])
  | body =>
      rw [role] at name
      obtain ⟨type, some, same⟩ := name
      have inline : c.hasModelBody = false :=
        Bool.eq_false_iff.mpr fun model => unnamed (Or.inr ⟨role, model⟩)
      rw [same, built.bodyTypeName_eq some inline]
      exact Or.inr (camel_body _)

/-- Of the slots of a function, only those that a document names can have a name of its own. -/
theorem Assembled.unused_iff
    (built : c.Assembled op o path query header queryTypes headerTypes) {slots : List Slot}
    (among : ∀ slot ∈ slots, slot ∈ c.surface.slots) {own : List String} (areOwn : AreOwn own)
    (options : ∀ slot ∈ slots, slot.role = .options → slot.name ∉ own) :
    (∀ slot ∈ slots, slot.name ∉ own) ↔ ∀ slot ∈ slots, c.IsNamed slot → slot.name ∉ own := by
  refine ⟨fun unused slot member _ => unused slot member, fun unused slot member used => ?_⟩
  by_cases named : c.IsNamed slot
  · exact unused slot member named used
  · obtain ⟨notGroup, notBody⟩ := areOwn slot.name used
    have other : slot.role ≠ .options := fun role => options slot member role used
    exact (built.name_of_unnamed (among slot member) named other).elim notGroup notBody

theorem Assembled.scope_nodup_iff
    (built : c.Assembled op o path query header queryTypes headerTypes) {slots : List Slot}
    (among : ∀ slot ∈ slots, slot ∈ c.surface.slots) (distinct : (slots.map Slot.name).Nodup)
    {own : List String} (ownDistinct : own.Nodup) (areOwn : AreOwn own)
    (options : ∀ slot ∈ slots, slot.role = .options → slot.name ∉ own) :
    (slots.map Slot.name ++ own).Nodup ↔
      ∀ slot ∈ slots, c.IsNamed slot → slot.name ∉ own := by
  rw [← built.unused_iff among areOwn options, List.nodup_append]
  constructor
  · rintro ⟨-, -, apart⟩ slot member used
    exact apart _ (List.mem_map_of_mem member) _ used rfl
  · intro unused
    refine ⟨distinct, ownDistinct, ?_⟩
    rintro name member other used rfl
    obtain ⟨slot, there, rfl⟩ := List.mem_map.mp member
    exact unused slot there used

/-- The names of variables have no blanks. -/
theorem Assembled.name_visible
    (built : c.Assembled op o path query header queryTypes headerTypes) {name : String}
    (member : name ∈ c.surface.names) : ∀ d ∈ name.toList, d ≠ ' ' := by
  have joined : ∀ source : String, ∀ d ∈ (Naming.camel source).toList, d ≠ ' ' := by
    rintro source d inside rfl
    rw [Naming.camel, String.toList_ofList] at inside
    exact absurd (Naming.camel_isNameChar ' ' inside) (by decide)
  have fixed : ∀ name ∈ ["params", "headers", "options"], ∀ d ∈ name.toList, d ≠ ' ' := by decide
  rcases List.mem_append.mp (built.names_perm.subset member) with inPath | later
  · obtain ⟨source, -, rfl⟩ := List.mem_map.mp inPath
    exact joined source
  · rcases List.mem_append.mp later with inBody | isFixed
    · obtain ⟨source, -, rfl⟩ := Option.map_eq_some_iff.mp (Option.mem_toList.mp inBody)
      exact joined source
    · exact fixed name (c.fixedNames_sublist.subset isFixed)

end Built

end Contract

/-- What a request function declares, and when it declares a name twice. -/
structure RequestFunction.Scoped (f : RequestFunction) (c : Contract) : Prop where
  /-- Its parameters are those of its surface, by their names, -/
  parameters : List.Forall₂ DeclaresParameter f.surface.names f.surface.parts
  written : f.render = String.intercalate "\n" (f.head :: (f.bodyLines ++ ["\x7d;"]))
  /-- and its lines declare no more than the variable for a form. -/
  body : DeclareInOrder f.bodyLines f.ownNames
  distinct : f.scope.Nodup ↔ ∀ slot ∈ f.surface.slots, c.IsNamed slot → slot.name ∉ f.ownNames

/-- What a hook and the sender inside it declare, and when a name meets another. -/
structure Hook.Scoped (h : Hook) (c : Contract) : Prop where
  /-- Its parameters are those of its surface and the one for options, -/
  parameters : List.Forall₂ DeclaresParameter (h.surface.names ++ [h.optionsName])
    (h.surface.parts ++ [h.optionsParameter])
  /-- and its lines declare these variables. -/
  body : DeclareInOrder h.bodyLines h.bodyNames
  distinct : h.scope.Nodup ↔ ∀ slot ∈ h.surface.slots, c.IsNamed slot → slot.name ∉ h.ownNames
  /-- The sender has parameters where there is a body to send. -/
  sender : h.senderParameters = "" ∧ h.senderNames = [] ∨ ∃ type,
    h.senderParameters = "_key: Key, \x7b arg \x7d: \x7b arg: " ++ type ++ " \x7d" ∧
      h.senderNames = ["_key", "arg"]
  /-- They hide nothing that the hook introduces, -/
  visible : ∀ name ∈ h.ownNames, name ∉ h.senderNames
  /-- and no argument but that of a path parameter. -/
  passed : (∀ slot ∈ h.surface.slots, slot.name ∉ h.senderNames) ↔
    ∀ slot ∈ h.surface.slots, slot.role = .path → slot.name ∉ h.senderNames

namespace Hook

/-- The variables that a hook introduces, in all their forms. -/
theorem ownNames_eq (h : Hook) :
    ∃ handed ∈ [[], ["axiosOptions"], ["requestOptions"]],
      ∃ own ∈ ["options" :: "swrOptions" :: handed, ["swrOptions"]],
        h.ownNames = own ++ ["isEnabled", "swrKey", "swrFn", h.kind.name] := by
  unfold ownNames optionsName bodyNames unpacked
  cases h.takesRequestOptions with
  | false => exact ⟨[], by decide, _, List.mem_cons_of_mem _ List.mem_cons_self, rfl⟩
  | true =>
      cases h.transport with
      | none => exact ⟨[], by decide, _, List.mem_cons_self, rfl⟩
      | some t =>
          cases t with
          | axios => exact ⟨["axiosOptions"], by decide, _, List.mem_cons_self, rfl⟩
          | mutator m => exact ⟨["requestOptions"], by decide, _, List.mem_cons_self, rfl⟩

/-- They are distinct, and differ from all that the generator chooses for others. -/
theorem ownNames_apart (h : Hook) : h.ownNames.Nodup ∧ Contract.AreOwn h.ownNames ∧
    ∀ name ∈ h.ownNames, name ∉ ["_key", "arg"] := by
  have all : ∀ kind : VerbKind, ∀ handed ∈ [[], ["axiosOptions"], ["requestOptions"]],
      ∀ own ∈ ["options" :: "swrOptions" :: handed, ["swrOptions"]],
        (own ++ ["isEnabled", "swrKey", "swrFn", kind.name]).Nodup ∧
          Contract.AreOwn (own ++ ["isEnabled", "swrKey", "swrFn", kind.name]) ∧
          ∀ name ∈ own ++ ["isEnabled", "swrKey", "swrFn", kind.name], name ∉ ["_key", "arg"] := by
    intro kind
    cases kind <;> decide +kernel
  obtain ⟨handed, among, own, there, same⟩ := h.ownNames_eq
  rw [same]
  exact all h.kind handed among own there

theorem optionsName_declared (h : Hook) : DeclaresParameter h.optionsName h.optionsParameter := by
  have spelled : "options" ++ "?: " = "options?: " ∧ "swrOptions" ++ "?: " = "swrOptions?: " := by
    decide
  unfold optionsName optionsParameter
  split
  · exact ⟨_, Or.inr (by rw [spelled.1])⟩
  · exact ⟨_, Or.inr (by rw [spelled.2])⟩

/-- The sender has parameters where there is a body to send. -/
theorem sender_declares (h : Hook) : h.senderParameters = "" ∧ h.senderNames = [] ∨ ∃ type,
    h.senderParameters = "_key: Key, \x7b arg \x7d: \x7b arg: " ++ type ++ " \x7d" ∧
      h.senderNames = ["_key", "arg"] := by
  unfold senderParameters senderNames
  cases h.argumentType with
  | none => exact Or.inl ⟨rfl, rfl⟩
  | some type => exact Or.inr ⟨type, rfl, rfl⟩

theorem senderNames_sublist (h : Hook) : h.senderNames.Sublist ["_key", "arg"] := by
  unfold senderNames
  split
  · exact .refl _
  · exact List.nil_sublist _

end Hook

namespace Contract

variable {op : Operation} {o : Override} {c : Contract} {path query header : List Slot}
  {queryTypes headerTypes : List Declaration}

theorem Assembled.request_scoped
    (built : c.Assembled op o path query header queryTypes headerTypes)
    (distinct : c.surface.names.Nodup) {profile : Profile} {f : RequestFunction}
    (request : c.request profile = .ok f) : f.Scoped c := by
  obtain ⟨-, surface, -⟩ := request_eq_ok request
  have made := request_form request
  have own : f.ownNames.Nodup ∧ AreOwn f.ownNames ∧ "options" ∉ f.ownNames := by
    have all : ∀ kind : FormKind, [kind.name].Nodup ∧ AreOwn [kind.name] ∧
        "options" ∉ [kind.name] := by
      intro kind
      cases kind <;> decide
    unfold RequestFunction.ownNames
    cases f.form with
    | none => decide
    | some form => exact all form.kind
  refine ⟨Surface.parts_declare _, f.render_eq, f.bodyLines_declare fun form some => ?_, ?_⟩
  · rw [some] at made
    obtain ⟨slot, member, -, name⟩ := exists_of_slotName? (form_source made)
    rw [← name]
    exact built.name_visible (List.mem_map_of_mem member)
  · unfold RequestFunction.scope
    rw [surface]
    refine built.scope_nodup_iff (fun _ => id) distinct own.1 own.2.1 fun slot member role => ?_
    obtain ⟨t, -, rfl⟩ := built.isOptions_iff.mp ⟨member, role⟩
    exact own.2.2

theorem Assembled.hook_scoped
    (built : c.Assembled op o path query header queryTypes headerTypes)
    (distinct : c.surface.names.Nodup) (kind : VerbKind) : (c.hook kind).Scoped c := by
  have among : ∀ slot ∈ (c.hook kind).surface.slots, slot ∈ c.surface.slots ∧
      slot.role ≠ .options ∧ (kind = .mutation → slot.role ≠ .body) := by
    intro slot member
    obtain ⟨there, role⟩ := Surface.mem_without.mp member
    refine ⟨there, fun options => role (by simp [options]), fun mutates body => role ?_⟩
    simp [mutates, body]
  obtain ⟨ownDistinct, areOwn, visible⟩ := (c.hook kind).ownNames_apart
  have sublist := (c.hook kind).senderNames_sublist
  constructor
  case parameters =>
    exact List.rel_append (Surface.parts_declare _) (.cons (c.hook kind).optionsName_declared .nil)
  case body => exact (c.hook kind).bodyLines_declare
  case distinct =>
    refine built.scope_nodup_iff (fun slot member => (among slot member).1) ?_ ownDistinct areOwn
      fun slot member role => absurd role (among slot member).2.1
    exact distinct.sublist (List.filter_sublist.map Slot.name)
  case sender => exact (c.hook kind).sender_declares
  case visible => exact fun name member hidden => visible name member (sublist.subset hidden)
  case passed =>
    have senderOwn : AreOwn (c.hook kind).senderNames := fun name member =>
      (by decide : AreOwn ["_key", "arg"]) name (sublist.subset member)
    refine (built.unused_iff (fun slot member => (among slot member).1) senderOwn
      fun slot member role => absurd role (among slot member).2.1).trans ?_
    refine ⟨fun unused slot member role => unused slot member (Or.inl role), ?_⟩
    rintro unused slot member (role | ⟨role, -⟩)
    · exact unused slot member role
    · -- a body is a parameter of the hook only where there is none to send
      have reads : kind ≠ .mutation := fun mutates => (among slot member).2.2 mutates role
      have unsent : (c.hook kind).argumentType = none := if_neg reads
      unfold Hook.senderNames
      rw [unsent]
      simp

/-- **Scopes have no name twice, unless a document uses a name of the generator.**  The signature
having distinct names, the variables of the request function and of the hook are distinct exactly
if no path parameter and no body with a model is called like a variable that these functions
introduce, and the sender hides an argument only of a path parameter that is called like one of
its parameters. -/
theorem scopes_distinct_iff {op : Operation} {o : Override} {c : Contract}
    (built : (op.contract o).result = .ok c) (distinct : c.surface.names.Nodup) :
    (∀ profile f, c.request profile = .ok f → f.Scoped c) ∧ ∀ kind, (c.hook kind).Scoped c := by
  obtain ⟨_, _, _, _, _, assembled⟩ := Operation.contract_eq_ok built
  exact ⟨fun profile f request => assembled.request_scoped distinct request,
    assembled.hook_scoped distinct⟩

/-- A body of this media type, with a text in it. -/
def textBody (mediaType : String) : Value :=
  .object [("content", .object [(mediaType, .object [("schema", .object [
    ("type", .str "object"),
    ("properties", .object [("text", .object [("type", .str "string")])])])])])]

/-- A note that is sent as a form. -/
def noteOperation : Value :=
  documentOf [("/pets/\x7bpetId\x7d/notes", "post", [
    ("operationId", .str "addNote"), ("parameters", .list [textParameter "petId" "path"]),
    ("requestBody", textBody "multipart/form-data"), ("responses", .object [])])]

theorem scopes_distinct_note :
    ∃ api op c f, Api.ofDocument noteOperation = .ok api ∧ api.operations = [op] ∧
      (op.contract {}).result = .ok c ∧ c.request ⟨true, true⟩ = .ok f ∧
      f.scope = ["petId", "addNoteBody", "options", "formData"] ∧
      (c.hook .mutation).scope = ["petId", "options", "swrOptions", "axiosOptions", "isEnabled",
        "swrKey", "swrFn", "mutation"] ∧
      (∀ slot ∈ f.surface.slots, c.IsNamed slot → slot.name ∉ f.ownNames) ∧
      ∀ slot ∈ (c.hook .mutation).surface.slots, slot.role = .path →
        slot.name ∉ (c.hook .mutation).senderNames := by
  have runs : ∃ api op c f, Api.ofDocument noteOperation = .ok api ∧ api.operations = [op] ∧
      (op.contract {}).result = .ok c ∧ c.request ⟨true, true⟩ = .ok f ∧
      c.surface.names = ["petId", "addNoteBody", "options"] ∧
      f.scope = ["petId", "addNoteBody", "options", "formData"] ∧
      (c.hook .mutation).scope = ["petId", "options", "swrOptions", "axiosOptions", "isEnabled",
        "swrKey", "swrFn", "mutation"] ∧
      (c.hook .mutation).surface.names = ["petId"] ∧
      (c.hook .mutation).senderNames = ["_key", "arg"] :=
    ⟨_, _, _, _, rfl, rfl, rfl, rfl, rfl, rfl, rfl, rfl, rfl⟩
  obtain ⟨api, op, c, f, read, only, built, request, names, inRequest, inHook, hookNames, sender⟩ :=
    runs
  have distinct : c.surface.names.Nodup := by
    rw [names]
    decide
  obtain ⟨requests, hooks⟩ := scopes_distinct_iff built distinct
  have scope : f.scope.Nodup := by
    rw [inRequest]
    decide
  have passed : ∀ slot ∈ (c.hook .mutation).surface.slots,
      slot.name ∉ (c.hook .mutation).senderNames := by
    intro slot member
    have named : slot.name ∈ (c.hook .mutation).surface.names := List.mem_map_of_mem member
    rw [hookNames, List.mem_singleton] at named
    rw [sender, named]
    decide
  exact ⟨api, op, c, f, read, only, built, request, inRequest, inHook,
    (requests _ f request).distinct.mp scope, (hooks .mutation).passed.mp passed⟩

/-- A form beside a path parameter that is called like the variable for it. -/
def clashingForm : String × String × List (String × Value) :=
  ("/forms/\x7bformData\x7d", "post", [
    ("operationId", .str "sendForm"), ("parameters", .list [textParameter "formData" "path"]),
    ("requestBody", textBody "multipart/form-data"), ("responses", .object [])])

/-- Operations with parameters that are called like what the generator introduces. -/
def clashingOperations : Value :=
  documentOf [
    ("/search/\x7bquery\x7d", "get", [
      ("operationId", .str "search"), ("parameters", .list [textParameter "query" "path"]),
      ("responses", .object [])]),
    ("/arguments/\x7barg\x7d", "put", [
      ("operationId", .str "putArgument"), ("parameters", .list [textParameter "arg" "path"]),
      ("requestBody", textBody "application/json"), ("responses", .object [])]),
    clashingForm]

/-- A path parameter may be declared again as the answer of a hook or as a form, and the body that
a sender is passed may hide it. -/
theorem scopes_repeat :
    ∃ api search put send c d e f, Api.ofDocument clashingOperations = .ok api ∧
      api.operations = [search, put, send] ∧ (search.contract {}).result = .ok c ∧
      (put.contract {}).result = .ok d ∧ (send.contract {}).result = .ok e ∧
      c.surface.names.Nodup ∧ d.surface.names.Nodup ∧ e.surface.names.Nodup ∧
      DeclareInOrder (c.hook .query).bodyLines
        ["swrOptions", "axiosOptions", "isEnabled", "swrKey", "swrFn", "query"] ∧
      (c.hook .query).surface.names = ["query"] ∧ ¬ (c.hook .query).scope.Nodup ∧
      d.callArguments .mutation = ["arg", "arg", "axiosOptions"] ∧
      (d.hook .mutation).surface.names = ["arg"] ∧
      "arg" ∈ (d.hook .mutation).senderNames ∧
      e.request ⟨true, true⟩ = .ok f ∧
      f.scope = ["formData", "sendFormBody", "options", "formData"] ∧
      ¬ f.scope.Nodup := by
  have runs : ∃ api search put send c d e f, Api.ofDocument clashingOperations = .ok api ∧
      api.operations = [search, put, send] ∧ (search.contract {}).result = .ok c ∧
      (put.contract {}).result = .ok d ∧ (send.contract {}).result = .ok e ∧
      c.surface.names = ["query", "options"] ∧
      d.surface.names = ["arg", "putArgumentBody", "options"] ∧
      e.surface.names = ["formData", "sendFormBody", "options"] ∧
      (c.hook .query).bodyNames =
        ["swrOptions", "axiosOptions", "isEnabled", "swrKey", "swrFn", "query"] ∧
      (c.hook .query).surface.names = ["query"] ∧
      (c.hook .query).scope = ["query", "options", "swrOptions", "axiosOptions", "isEnabled",
        "swrKey", "swrFn", "query"] ∧
      d.callArguments .mutation = ["arg", "arg", "axiosOptions"] ∧
      (d.hook .mutation).surface.names = ["arg"] ∧
      (d.hook .mutation).senderNames = ["_key", "arg"] ∧ e.request ⟨true, true⟩ = .ok f ∧
      f.scope = ["formData", "sendFormBody", "options", "formData"] :=
    ⟨_, _, _, _, _, _, _, _, rfl, rfl, rfl, rfl, rfl, rfl, rfl, rfl, rfl, rfl, rfl, rfl, rfl, rfl,
      rfl, rfl⟩
  obtain ⟨api, search, put, send, c, d, e, f, read, all, built, built', built'', names, names',
    names'', body, hook, scope, passed, hook', sender, request, inForm⟩ := runs
  refine ⟨api, search, put, send, c, d, e, f, read, all, built, built', built'', ?_, ?_, ?_,
    body ▸ (c.hook .query).bodyLines_declare, hook, ?_, passed, hook', ?_, request, inForm, ?_⟩
  · rw [names]
    decide
  · rw [names']
    decide
  · rw [names'']
    decide
  · rw [scope]
    decide
  · rw [sender]
    decide
  · rw [inForm]
    decide

end Contract

end ClientForge
