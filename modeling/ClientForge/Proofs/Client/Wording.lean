/-
# ClientForge.Proofs.Client.Wording -- the texts that generated code is made of

What is written for a call, a form, a request function or a hook is fixed text around texts
that it holds (`texts`).  The fixed text of a call or of a form mentions nothing that axios
exports, and neither does that of a hook that hands no options on to axios, or that of a
request function which has no type for what axios answers.  So these mention an export of axios
only if one of the texts that they hold does.
-/
import ClientForge.Client.Registry
import ClientForge.Proofs.Text.Words

namespace ClientForge

set_option autoImplicit false

open Text (Avoids IsName StartsOpen EndsOpen Separates)

/-- The names of all that axios exports. -/
def axiosNames : List String := axiosDependencies.flatMap fun d => d.exports.map Export.name

theorem isName_of_mem_axiosNames : ∀ w ∈ axiosNames, IsName w := by decide +kernel

/-- What all of these names have in common. -/
def axiosStem : List Char := ['x', 'i', 'o', 's']

theorem stem_of_mem_axiosNames : ∀ w ∈ axiosNames, axiosStem <:+: w.toList := by decide +kernel

theorem Config.occursIn_of_piece {part s : List Char} (piece : part <:+: s) :
    occursIn part s = true := by
  induction s with
  | nil =>
      obtain rfl := List.infix_nil.mp piece
      rfl
  | cons c rest ih =>
      rw [occursIn, Bool.or_eq_true, List.isPrefixOf_iff_prefix]
      rcases List.infix_cons_iff.mp piece with here | later
      · exact Or.inl here
      · exact Or.inr (ih later)

/-- A fixed text that mentions nothing of axios. -/
def IsNeutral (text : String) : Prop := Config.occursIn axiosStem text.toList = false

theorem IsNeutral.avoids {w text : String} (neutral : IsNeutral text) (axios : w ∈ axiosNames) :
    Avoids w text := by
  refine .of_missing (stem_of_mem_axiosNames w axios) fun piece => ?_
  rw [IsNeutral, Config.occursIn_of_piece piece] at neutral
  cases neutral

/-- A neutral text in front of another. -/
def IsOpening (text : String) : Prop := EndsOpen text ∧ IsNeutral text

/-- A neutral text behind another. -/
def IsClosing (text : String) : Prop := StartsOpen text ∧ IsNeutral text

/-- A neutral text between two others. -/
def IsDivider (text : String) : Prop := Separates text ∧ IsNeutral text

instance (text : String) : Decidable (IsNeutral text) := inferInstanceAs (Decidable (_ = _))
instance (text : String) : Decidable (IsOpening text) := inferInstanceAs (Decidable (_ ∧ _))
instance (text : String) : Decidable (IsClosing text) := inferInstanceAs (Decidable (_ ∧ _))
instance (text : String) : Decidable (IsDivider text) := inferInstanceAs (Decidable (_ ∧ _))

section Wording

variable {w start separator finish text one two : String} (axios : w ∈ axiosNames)
include axios

theorem avoids_prefixed (fixed : IsOpening start) (avoids : Avoids w text) :
    Avoids w (start ++ text) :=
  .append (isName_of_mem_axiosNames w axios) (fixed.2.avoids axios) avoids (Or.inl fixed.1)

theorem avoids_suffixed (fixed : IsClosing finish) (avoids : Avoids w text) :
    Avoids w (text ++ finish) :=
  .append (isName_of_mem_axiosNames w axios) avoids (fixed.2.avoids axios) (Or.inr fixed.1)

theorem avoids_around (fixed : IsDivider separator) (first : Avoids w one)
    (second : Avoids w two) : Avoids w (one ++ separator ++ two) :=
  .around (isName_of_mem_axiosNames w axios) first fixed.1 (fixed.2.avoids axios) second

theorem avoids_framed (fixed : IsOpening start ∧ IsClosing finish) (avoids : Avoids w text) :
    Avoids w (start ++ text ++ finish) :=
  avoids_suffixed axios fixed.2 (avoids_prefixed axios fixed.1 avoids)

/-- Two texts inside a line. -/
theorem avoids_both (fixed : IsOpening start ∧ IsDivider separator ∧ IsClosing finish)
    (first : Avoids w one) (second : Avoids w two) :
    Avoids w (start ++ one ++ separator ++ two ++ finish) :=
  avoids_suffixed axios fixed.2.2
    (avoids_around axios fixed.2.1 (avoids_prefixed axios fixed.1 first) second)

theorem avoids_joined (fixed : IsDivider separator) {parts : List String}
    (each : ∀ part ∈ parts, Avoids w part) : Avoids w (String.intercalate separator parts) :=
  .intercalate (isName_of_mem_axiosNames w axios) fixed.1 (fixed.2.avoids axios) each

theorem avoids_listed {parts : List String} (each : ∀ part ∈ parts, Avoids w part) :
    Avoids w (String.intercalate ", " parts) :=
  avoids_joined axios (by decide) each

theorem avoids_lines {parts : List String} (each : ∀ part ∈ parts, Avoids w part) :
    Avoids w (String.intercalate "\n" parts) :=
  avoids_joined axios (by decide) each

/-- Texts on lines of their own. -/
theorem avoids_ownLines (fixed : IsOpening start ∧ IsClosing finish) (ends : EndsOpen finish)
    (nonempty : finish ≠ "") {parts : List String} (each : ∀ part ∈ parts, Avoids w part) :
    Avoids w (String.join (parts.map fun part => start ++ part ++ finish)) := by
  refine .join (isName_of_mem_axiosNames w axios) fun line member => ?_
  obtain ⟨part, among, rfl⟩ := List.mem_map.mp member
  exact ⟨avoids_framed axios fixed (each part among), EndsOpen.append _ nonempty ends⟩

theorem avoids_bracedList {parts : List String} (each : ∀ part ∈ parts, Avoids w part) :
    Avoids w (bracedList parts) :=
  avoids_framed axios (by decide) (avoids_listed axios each)

theorem avoids_templateLiteral {route : String} (avoids : Avoids w route) :
    Avoids w (templateLiteral route) :=
  avoids_framed axios (by decide) avoids

theorem avoids_propertyKey {name : String} (avoids : Avoids w name) :
    Avoids w (Naming.propertyKey name) := by
  unfold Naming.propertyKey
  split
  · exact avoids
  · exact avoids_framed axios (by decide) avoids

end Wording

/-! ## Calls -/

/-- The texts that an entry holds. -/
def CallEntry.texts : CallEntry → List String
  | .preset key value => [key.shown, (Literal.text? value).getD ""]
  | .spread name => [name]
  | .shorthand name => [name]
  | .merged key name => [key, name]
  | .data name => [name]
  | .url path => [path]
  | .method _ => []
  | .headers contentType name => contentType.toList ++ name.toList

def CallArgument.texts : CallArgument → List String
  | .route path => [path]
  | .named name => [name]
  | .undefined => []
  | .object entries => entries.flatMap CallEntry.texts

def Call.texts (c : Call) : List String := c.callee :: c.arguments.flatMap CallArgument.texts

section Calls

variable {w : String} (axios : w ∈ axiosNames)
include axios

theorem CallEntry.render_avoids (e : CallEntry) (each : ∀ text ∈ e.texts, Avoids w text) :
    Avoids w e.render := by
  cases e with
  | preset key value =>
      have name := avoids_propertyKey axios (each key.shown (by simp [texts]))
      have literal := each ((Literal.text? value).getD "") (by simp [texts])
      exact avoids_around axios (by decide) name literal
  | spread name => exact avoids_prefixed axios (by decide) (each name (by simp [texts]))
  | shorthand name => exact each name (by simp [texts])
  | merged key name =>
      have fixed : IsOpening "..." ∧ IsOpening "...options?." ∧ IsDivider ": " := by
        decide
      have group := each key (by simp [texts])
      have own := avoids_prefixed axios fixed.1 (each name (by simp [texts]))
      have callers := avoids_prefixed axios fixed.2.1 group
      refine avoids_around axios fixed.2.2 group (avoids_bracedList axios ?_)
      simpa using ⟨own, callers⟩
  | data name => exact avoids_prefixed axios (by decide) (each name (by simp [texts]))
  | url path =>
      exact avoids_prefixed axios (by decide)
        (avoids_templateLiteral axios (each path (by simp [texts])))
  | method verb =>
      have names : ∀ verb ∈ Verb.all, IsNeutral verb.name := by decide
      exact avoids_framed axios (by decide) ((names verb verb.mem_all).avoids axios)
  | headers contentType name =>
      refine avoids_prefixed axios (by decide) (avoids_bracedList axios ?_)
      intro part member
      rcases List.mem_append.mp member with type | group
      · obtain ⟨t, some, rfl⟩ := Option.map_eq_some_iff.mp (Option.mem_toList.mp type)
        exact avoids_framed axios (by decide) (each t (by simp [texts, some]))
      · obtain ⟨n, some, rfl⟩ := Option.map_eq_some_iff.mp (Option.mem_toList.mp group)
        exact avoids_prefixed axios (by decide) (each n (by simp [texts, some]))

theorem CallArgument.render_avoids (a : CallArgument) (each : ∀ text ∈ a.texts, Avoids w text) :
    Avoids w a.render := by
  cases a with
  | route path => exact avoids_templateLiteral axios (each path (by simp [texts]))
  | named name => exact each name (by simp [texts])
  | undefined =>
      have fixed : IsNeutral "undefined" := by decide
      exact fixed.avoids axios
  | object entries =>
      refine avoids_bracedList axios fun part member => ?_
      obtain ⟨e, among, rfl⟩ := List.mem_map.mp member
      refine e.render_avoids axios fun text inside => each text ?_
      exact List.mem_flatMap.mpr ⟨e, among, inside⟩

theorem Call.render_avoids (c : Call) (each : ∀ text ∈ c.texts, Avoids w text) :
    Avoids w c.render := by
  have callee : Avoids w c.callee := each c.callee List.mem_cons_self
  have rendered : ∀ part ∈ c.arguments.map CallArgument.render, Avoids w part := by
    intro part member
    obtain ⟨a, among, rfl⟩ := List.mem_map.mp member
    refine a.render_avoids axios fun text inside => each text (List.mem_cons_of_mem _ ?_)
    exact List.mem_flatMap.mpr ⟨a, among, inside⟩
  unfold Call.render
  dsimp only
  split
  · have fixed : IsDivider "(\n" ∧ IsClosing "  )" := by decide
    have lines : Avoids w (String.join
        ((c.arguments.map CallArgument.render).map fun a => "    " ++ a ++ ",\n")) :=
      avoids_ownLines axios (by decide) (by decide) (by decide) rendered
    exact avoids_suffixed axios fixed.2 (avoids_around axios fixed.1 callee lines)
  · have fixed : IsDivider "(" ∧ IsClosing ")" := by decide
    exact avoids_suffixed axios fixed.2
      (avoids_around axios fixed.1 callee (avoids_listed axios rendered))

end Calls

/-! ## Forms -/

/-- The texts that a form holds. -/
def FormBody.texts (f : FormBody) : List String :=
  f.source :: (f.fields.getD []).map FormField.name

section Forms

variable {w : String} (axios : w ∈ axiosNames)
include axios

theorem FormKind.name_avoids (kind : FormKind) :
    Avoids w kind.name ∧ Avoids w kind.constructor := by
  have names : IsNeutral "formData" ∧ IsNeutral "FormData" ∧ IsNeutral "formUrlEncoded" ∧
      IsNeutral "URLSearchParams" := by decide
  cases kind with
  | formData => exact ⟨names.1.avoids axios, names.2.1.avoids axios⟩
  | urlEncoded => exact ⟨names.2.2.1.avoids axios, names.2.2.2.avoids axios⟩

theorem Conversion.apply_avoids (conversion : Conversion) {expression : String}
    (avoids : Avoids w expression) : Avoids w (conversion.apply expression) := by
  cases conversion with
  | none => exact avoids
  | toText => exact avoids_suffixed axios (by decide) avoids
  | json => exact avoids_framed axios (by decide) avoids
  | textOrJson =>
      have fixed : IsDivider " : JSON.stringify(" ∧ IsClosing ")" := by decide
      have tested : Avoids w ("typeof " ++ expression ++ " === 'string' ? " ++ expression) :=
        avoids_around axios (by decide)
          (avoids_prefixed axios (by decide) avoids) avoids
      exact avoids_suffixed axios fixed.2 (avoids_around axios fixed.1 tested avoids)

theorem FormField.accessor_avoids (f : FormField) {source : String} (from_ : Avoids w source)
    (name : Avoids w f.name) : Avoids w (f.accessor source) := by
  unfold accessor
  split
  · exact avoids_around axios (by decide) from_ name
  · have fixed : IsDivider "['" ∧ IsClosing "']" := by decide
    exact avoids_suffixed axios fixed.2 (avoids_around axios fixed.1 from_ name)

theorem FormField.append_avoids (f : FormField) (kind : FormKind) {source : String}
    (from_ : Avoids w source) (name : Avoids w f.name) : Avoids w (f.append kind source) := by
  have fixed : IsDivider ".append('" ∧ IsDivider "', " ∧ IsDivider ".forEach(value => " ∧
      IsClosing "));" ∧ IsClosing ");" ∧ IsNeutral "value" := by decide
  obtain ⟨called, quoted, looped, closedTwice, closed, value⟩ := fixed
  have accessor := f.accessor_avoids axios from_ name
  have target := avoids_around axios called (kind.name_avoids axios).1 name
  unfold FormField.append
  dsimp only
  split
  · have each := avoids_around axios quoted target
      (f.conversion.apply_avoids axios (value.avoids axios))
    have whole := avoids_suffixed axios closedTwice (avoids_around axios looped accessor each)
    simp only [String.append_assoc] at whole ⊢
    exact whole
  · have each := avoids_around axios quoted target (f.conversion.apply_avoids axios accessor)
    exact avoids_suffixed axios closed each

theorem FormField.lines_avoid (f : FormField) (kind : FormKind) {source : String}
    (from_ : Avoids w source) (name : Avoids w f.name) :
    ∀ line ∈ f.lines kind source, Avoids w line := by
  have statement := f.append_avoids axios kind from_ name
  have accessor := f.accessor_avoids axios from_ name
  intro line member
  unfold FormField.lines at member
  split at member
  · rw [List.mem_singleton.mp member]
    exact avoids_prefixed axios (by decide) statement
  · have closing : IsNeutral "  \x7d" := by decide
    simp only [List.mem_cons, List.not_mem_nil, or_false] at member
    rcases member with rfl | rfl | rfl
    · exact avoids_framed axios (by decide) accessor
    · exact avoids_prefixed axios (by decide) statement
    · exact closing.avoids axios

theorem FormBody.lines_avoid (f : FormBody) (each : ∀ text ∈ f.texts, Avoids w text) :
    ∀ line ∈ f.lines, Avoids w line := by
  have source : Avoids w f.source := each f.source List.mem_cons_self
  obtain ⟨kind, constructor⟩ := f.kind.name_avoids axios
  intro line member
  rcases List.mem_cons.mp member with rfl | later
  · exact avoids_both axios (by decide) kind constructor
  · cases fields : f.fields with
    | some fields_ =>
        rw [fields] at later
        obtain ⟨field, among, inside⟩ := List.mem_flatMap.mp later
        refine field.lines_avoid axios f.kind source (each field.name ?_) line inside
        refine List.mem_cons_of_mem _ (List.mem_map.mpr ⟨field, ?_, rfl⟩)
        rw [fields]
        exact among
    | none =>
        rw [fields] at later
        rw [List.mem_singleton.mp later]
        have fixed : IsOpening "  Object.entries(" ∧ IsDivider ").forEach(([key, value]) => " ∧
            IsDivider ".append(key, " ∧ IsClosing "));" ∧ IsNeutral "value" := by decide
        obtain ⟨opening, looped, called, closing, name⟩ := fixed
        have value := Conversion.textOrJson.apply_avoids axios (name.avoids axios)
        have target := avoids_around axios looped (avoids_prefixed axios opening source) kind
        exact avoids_suffixed axios closing (avoids_around axios called target value)

end Forms

/-! ## Parameter lists -/

/-- A parameter list declares its slots, each in front of the later ones. -/
theorem Surface.exists_of_mem_parts {s : Surface} {part : String} (member : part ∈ s.parts) :
    ∃ slot ∈ s.slots, ∃ later, part = slot.render later := by
  unfold Surface.parts at member
  generalize s.slots = slots at member ⊢
  induction slots with
  | nil => cases member
  | cons slot later ih =>
      rcases List.mem_cons.mp member with here | there
      · exact ⟨slot, List.mem_cons_self, later, here⟩
      · obtain ⟨other, among, rest, same⟩ := ih there
        exact ⟨other, List.mem_cons_of_mem _ among, rest, same⟩

/-- The texts that the declaration of a slot holds. -/
def Slot.texts (s : Slot) : List String := [s.name, s.renderedType]

def Surface.texts (s : Surface) : List String := s.slots.flatMap Slot.texts

section Signatures

variable {w : String} (axios : w ∈ axiosNames)
include axios

theorem Slot.render_avoids (s : Slot) (later : List Slot)
    (each : ∀ text ∈ s.texts, Avoids w text) : Avoids w (s.render later) := by
  have name := each s.name (by simp [texts])
  have type := each s.renderedType (by simp [texts])
  have fixed : IsDivider ": " ∧ IsDivider "?: " ∧ IsClosing " | undefined" := by decide
  have declared := avoids_around axios fixed.1 name type
  unfold Slot.render
  split
  · exact declared
  · split
    · exact avoids_suffixed axios fixed.2.2 declared
    · exact avoids_around axios fixed.2.1 name type

theorem Surface.parts_avoid (s : Surface) (each : ∀ text ∈ s.texts, Avoids w text) :
    ∀ part ∈ s.parts, Avoids w part := by
  intro part member
  obtain ⟨slot, among, later, rfl⟩ := s.exists_of_mem_parts member
  refine slot.render_avoids axios later fun text inside => each text ?_
  exact List.mem_flatMap.mpr ⟨slot, among, inside⟩

theorem signatureText_avoids (s : Surface) (each : ∀ text ∈ s.texts, Avoids w text) :
    Avoids w (signatureText s) := by
  have fixed : IsNeutral "()" := by decide
  unfold signatureText
  dsimp only
  split
  · exact fixed.avoids axios
  · refine avoids_framed axios (by decide) ?_
    exact avoids_ownLines axios (by decide) (by decide) (by decide) (s.parts_avoid axios each)

end Signatures

/-! ## Request functions -/

/-- The texts that a request function holds, the type of the answer of axios aside. -/
def RequestFunction.texts (f : RequestFunction) : List String :=
  f.name :: f.surface.texts ++ ((f.form.map FormBody.texts).getD [] ++ f.call.texts)

theorem RequestFunction.render_avoids {w : String} (axios : w ∈ axiosNames) (f : RequestFunction)
    (untyped : f.result = none) (each : ∀ text ∈ f.texts, Avoids w text) :
    Avoids w f.render := by
  have name := each f.name (by simp [texts])
  have surface : ∀ text ∈ f.surface.texts, Avoids w text := fun text member =>
    each text (List.mem_append_left _ (List.mem_cons_of_mem _ member))
  have call := f.call.render_avoids axios fun text member =>
    each text (List.mem_append_right _ (List.mem_append_right _ member))
  refine avoids_lines axios fun line member => ?_
  rcases List.mem_cons.mp member with rfl | later
  · have head : f.head = "export const " ++ f.name ++ " = " ++ signatureText f.surface ++ "" ++
        " => \x7b" := by
      unfold RequestFunction.head
      rw [untyped]
    rw [head, String.append_empty]
    exact avoids_both axios (by decide) name (signatureText_avoids axios f.surface surface)
  · rcases List.mem_append.mp later with inForm | inCall
    · cases form : f.form with
      | none =>
          rw [form] at inForm
          cases inForm
      | some body =>
          rw [form] at inForm
          refine body.lines_avoid axios (fun text inside => each text ?_) line inForm
          refine List.mem_append_right _ (List.mem_append_left _ ?_)
          rw [form]
          exact inside
    · have closing : IsNeutral "\x7d;" := by decide
      simp only [List.mem_cons, List.not_mem_nil, or_false] at inCall
      rcases inCall with rfl | rfl
      · exact avoids_framed axios (by decide) call
      · exact closing.avoids axios

/-! ## Hooks -/

def KeyFunction.texts (k : KeyFunction) : List String :=
  k.name :: k.route :: k.query.toList ++ k.surface.texts

namespace Hook

/-- The type of the answer that a hook exports. -/
def resultName (h : Hook) : String := h.typeStart ++ h.kind.typeEnding ++ "Result"

/-- The type of the error that a hook exports. -/
def errorName (h : Hook) : String := h.typeStart ++ h.kind.typeEnding ++ "Error"

/-- The texts that a hook holds, besides those of the key function. -/
def texts (h : Hook) : List String :=
  [h.name, h.request, h.resultName, h.errorName, h.errorType] ++ h.surface.texts ++
    (h.transport.map TransportOptions.type).toList ++ h.guards ++ h.argumentType.toList ++
    h.call.texts ++ h.settings.texts

theorem typeLines_eq (h : Hook) : h.typeLines =
    ["export type " ++ h.resultName ++ " = NonNullable<" ++ h.answerType ++ ">;",
      "export type " ++ h.errorName ++ " = " ++ h.errorType ++ ";"] := by
  have result : "Result" ++ " = NonNullable<" = "Result = NonNullable<" := by decide
  have error : "Error" ++ " = " = "Error = " := by decide
  unfold typeLines resultName errorName
  rw [← result, ← error]
  simp only [String.append_assoc]

end Hook

section Hooks

variable {w : String} (axios : w ∈ axiosNames)
include axios

theorem KeyFunction.render_avoids (k : KeyFunction) (each : ∀ text ∈ k.texts, Avoids w text) :
    Avoids w k.render := by
  have name := each k.name (by simp [texts])
  have elements : ∀ element ∈ k.elements, Avoids w element := by
    intro element member
    rcases List.mem_cons.mp member with rfl | rest
    · exact avoids_templateLiteral axios (each k.route (by simp [texts]))
    · obtain ⟨query, some, rfl⟩ := Option.map_eq_some_iff.mp (Option.mem_toList.mp rest)
      have text := each query (by simp [texts, some])
      exact avoids_both axios (by decide) text text
  have surface : Avoids w k.surface.render := by
    refine avoids_listed axios (k.surface.parts_avoid axios fun text member => each text ?_)
    exact List.mem_append_right _ member
  have fixed : IsOpening "export const " ∧ IsDivider " = (" ∧ IsDivider ") => [" ∧
      IsClosing "] as const;" := by decide
  have signed := avoids_around axios fixed.2.1 (avoids_prefixed axios fixed.1 name) surface
  exact avoids_suffixed axios fixed.2.2.2
    (avoids_around axios fixed.2.2.1 signed (avoids_listed axios elements))

theorem KeyFunction.call_avoids (k : KeyFunction) (each : ∀ text ∈ k.texts, Avoids w text) :
    Avoids w k.call.render := by
  refine k.call.render_avoids axios fun text member => ?_
  rcases List.mem_cons.mp member with rfl | passed
  · exact each k.name (by simp [texts])
  · obtain ⟨argument, among, inside⟩ := List.mem_flatMap.mp passed
    obtain ⟨name, named, rfl⟩ := List.mem_map.mp among
    obtain ⟨slot, there, rfl⟩ := List.mem_map.mp named
    rw [List.mem_singleton.mp inside]
    refine each slot.name (List.mem_append_right _ ?_)
    exact List.mem_flatMap.mpr ⟨slot, there, by simp [Slot.texts]⟩

/-- The fixed texts of a kind of hooks. -/
theorem VerbKind.names_avoid (kind : VerbKind) :
    Avoids w kind.name ∧ Avoids w kind.configurationType ∧ Avoids w kind.hookFunction := by
  have query : IsNeutral "query" ∧ IsNeutral "SWRConfiguration" ∧ IsNeutral "useSWR" := by
    decide
  have mutation : IsNeutral "mutation" ∧ IsNeutral "SWRMutationConfiguration" ∧
      IsNeutral "useSWRMutation" := by decide
  cases kind with
  | query => exact ⟨query.1.avoids axios, query.2.1.avoids axios, query.2.2.avoids axios⟩
  | mutation =>
      exact ⟨mutation.1.avoids axios, mutation.2.1.avoids axios, mutation.2.2.avoids axios⟩

namespace Hook

variable (h : Hook)

theorem answerType_avoids (request : Avoids w h.request) : Avoids w h.answerType :=
  avoids_framed axios (by decide) request

theorem optionsType_avoids (request : Avoids w h.request) : Avoids w h.optionsType := by
  have fixed : IsDivider "<" ∧
      IsClosing ", TError> & \x7b swrKey?: Key, enabled?: boolean \x7d" := by decide
  exact avoids_suffixed axios fixed.2 (avoids_around axios fixed.1
    (h.kind.names_avoid axios).2.1 (h.answerType_avoids axios request))

/-- The parameter for options, unless the hook hands options on to axios. -/
theorem optionsParameter_avoids (mutated : h.transport ≠ some .axios)
    (each : ∀ text ∈ h.texts, Avoids w text) : Avoids w h.optionsParameter := by
  have fixed : IsOpening "options?: " ∧ IsOpening "swr?: " ∧ IsNeutral "request" ∧
      IsDivider "?: " ∧ IsOpening "swrOptions?: " := by decide
  obtain ⟨all, swr, request, typed, onlyOwn⟩ := fixed
  have own := h.optionsType_avoids axios (each h.request (by simp [texts]))
  unfold optionsParameter
  split
  · refine avoids_prefixed axios all (avoids_bracedList axios fun part member => ?_)
    rcases List.mem_cons.mp member with rfl | handed
    · exact avoids_prefixed axios swr own
    · obtain ⟨t, some, rfl⟩ := Option.map_eq_some_iff.mp (Option.mem_toList.mp handed)
      have type := each t.type (by simp [texts, some])
      cases t with
      | axios => exact absurd some mutated
      | mutator m => exact avoids_around axios typed (request.avoids axios) type
  · exact avoids_prefixed axios onlyOwn own

theorem optionsLines_avoid (mutated : h.transport ≠ some .axios) :
    ∀ line ∈ h.optionsLines, Avoids w line := by
  have fixed : IsNeutral "swr: swrOptions" ∧ IsNeutral ("request" ++ ": " ++ "requestOptions") ∧
      IsNeutral "" := by decide
  intro line member
  unfold optionsLines at member
  split at member
  · simp only [List.mem_cons, List.not_mem_nil, or_false] at member
    rcases member with rfl | rfl
    · refine avoids_framed axios (by decide) (avoids_bracedList axios fun part inside => ?_)
      rcases List.mem_cons.mp inside with rfl | handed
      · exact fixed.1.avoids axios
      · obtain ⟨t, some, rfl⟩ := Option.map_eq_some_iff.mp (Option.mem_toList.mp handed)
        cases t with
        | axios => exact absurd some mutated
        | mutator m => exact fixed.2.1.avoids axios
    · exact fixed.2.2.avoids axios
  · cases member

theorem enabledText_avoids (each : ∀ text ∈ h.texts, Avoids w text) : Avoids w h.enabledText := by
  have start : IsNeutral "swrOptions?.enabled !== false" := by decide
  unfold enabledText
  split
  · rw [String.append_empty]
    exact start.avoids axios
  · have fixed : IsDivider " && " ∧ IsOpening " && !!(" ∧ IsClosing ")" := by decide
    have guards := avoids_joined axios fixed.1
      fun part (member : part ∈ h.guards) => each part (by simp [texts, member])
    have condition := avoids_framed axios fixed.2 guards
    have opens : StartsOpen (" && !!(" ++ String.intercalate " && " h.guards ++ ")") := by
      rw [String.append_assoc]
      exact StartsOpen.append (by decide) (by decide) _
    exact .append (isName_of_mem_axiosNames w axios) (start.avoids axios) condition (Or.inr opens)

theorem senderParameters_avoid (each : ∀ text ∈ h.texts, Avoids w text) :
    Avoids w h.senderParameters := by
  have empty : IsNeutral "" := by decide
  unfold senderParameters
  split
  · rename_i type some
    exact avoids_framed axios (by decide) (each type (by simp [texts, some]))
  · exact empty.avoids axios

theorem typeArguments_avoid (each : ∀ text ∈ h.texts, Avoids w text) :
    ∀ type ∈ h.typeArguments, Avoids w type := by
  have fixed : IsNeutral "Awaited<ReturnType<typeof swrFn>>" ∧ IsNeutral "TError" ∧
      IsNeutral "Key" := by decide
  intro type member
  rcases List.mem_append.mp member with common | ofKind
  · simp only [List.mem_cons, List.not_mem_nil, or_false] at common
    rcases common with rfl | rfl
    · exact fixed.1.avoids axios
    · exact fixed.2.1.avoids axios
  · cases kind : h.kind with
    | query =>
        rw [kind] at ofKind
        cases ofKind
    | mutation =>
        rw [kind] at ofKind
        rcases List.mem_cons.mp ofKind with rfl | argument
        · exact fixed.2.2.avoids axios
        · exact each type (by simp [texts, Option.mem_toList.mp argument])

theorem underlying_avoids (each : ∀ text ∈ h.texts, Avoids w text) :
    Avoids w h.underlying.render := by
  have fixed : IsDivider "<" ∧ IsClosing ">" ∧ IsNeutral "swrKey" ∧ IsNeutral "swrFn" := by
    decide
  obtain ⟨applied, closing, key, function⟩ := fixed
  have callee := avoids_suffixed axios closing (avoids_around axios applied
    (h.kind.names_avoid axios).2.2 (avoids_listed axios (h.typeArguments_avoid axios each)))
  refine h.underlying.render_avoids axios fun text member => ?_
  rcases List.mem_cons.mp member with rfl | passed
  · exact callee
  · obtain ⟨argument, among, inside⟩ := List.mem_flatMap.mp passed
    simp only [underlying, List.mem_cons, List.not_mem_nil, or_false] at among
    rcases among with rfl | rfl | rfl
    · rw [List.mem_singleton.mp inside]
      exact key.avoids axios
    · rw [List.mem_singleton.mp inside]
      exact function.avoids axios
    · exact each text (by simp [texts, inside])

theorem bodyLines_avoid (mutated : h.transport ≠ some .axios)
    (each : ∀ text ∈ h.texts, Avoids w text) (inKey : ∀ text ∈ h.key.texts, Avoids w text) :
    ∀ line ∈ h.bodyLines, Avoids w line := by
  have fixed : IsNeutral "" ∧ IsNeutral "  return \x7b" ∧ IsNeutral "    swrKey," ∧
      IsNeutral "  \x7d;" := by decide
  have kind := (h.kind.names_avoid axios).1
  have call := h.call.render_avoids axios fun text member => each text (by simp [texts, member])
  intro line member
  rcases List.mem_append.mp member with unpacking | later
  · exact h.optionsLines_avoid axios mutated line unpacking
  · simp only [List.mem_cons, List.not_mem_nil, or_false] at later
    rcases later with rfl | rfl | rfl | rfl | rfl | rfl | rfl | rfl | rfl | rfl
    · exact avoids_framed axios (by decide) (h.enabledText_avoids axios each)
    · exact avoids_framed axios (by decide) (h.key.call_avoids axios inKey)
    · exact avoids_both axios (by decide) (h.senderParameters_avoid axios each) call
    · exact fixed.1.avoids axios
    · exact avoids_both axios (by decide) kind (h.underlying_avoids axios each)
    · exact fixed.1.avoids axios
    · exact fixed.2.1.avoids axios
    · exact fixed.2.2.1.avoids axios
    · exact avoids_framed axios (by decide) kind
    · exact fixed.2.2.2.avoids axios

theorem render_avoids (mutated : h.transport ≠ some .axios)
    (each : ∀ text ∈ h.texts, Avoids w text) (inKey : ∀ text ∈ h.key.texts, Avoids w text) :
    Avoids w h.render := by
  have fixed : IsNeutral "" ∧ IsNeutral ") => \x7b" ∧ IsNeutral "\x7d;" := by decide
  have request := each h.request (by simp [texts])
  have errorType := each h.errorType (by simp [texts])
  refine avoids_lines axios fun line member => ?_
  simp only [List.mem_append, List.mem_cons, List.not_mem_nil, or_false] at member
  rcases member with ((((inTypes | rfl | rfl) | parameter) | rfl) | inBody) | rfl
  · rw [typeLines_eq] at inTypes
    simp only [List.mem_cons, List.not_mem_nil, or_false] at inTypes
    rcases inTypes with rfl | rfl
    · exact avoids_both axios (by decide) (each h.resultName (by simp [texts]))
        (h.answerType_avoids axios request)
    · exact avoids_both axios (by decide) (each h.errorName (by simp [texts])) errorType
  · exact fixed.1.avoids axios
  · exact avoids_both axios (by decide) (each h.name (by simp [texts])) errorType
  · obtain ⟨part, among, rfl⟩ := List.mem_map.mp parameter
    refine avoids_framed axios (by decide) ?_
    rcases List.mem_append.mp among with ofSurface | ofOptions
    · refine h.surface.parts_avoid axios (fun text inside => each text ?_) part ofSurface
      simp [texts, inside]
    · rw [List.mem_singleton.mp ofOptions]
      exact h.optionsParameter_avoids axios mutated each
  · exact fixed.2.1.avoids axios
  · exact h.bodyLines_avoid axios mutated each inKey line inBody
  · exact fixed.2.2.avoids axios

end Hook

end Hooks

end ClientForge
