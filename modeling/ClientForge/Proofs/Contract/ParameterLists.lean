/-
# ClientForge.Proofs.Contract.ParameterLists -- parameter lists are ones the language takes

In a parameter list no parameter with a question mark may stand in front of one without, and
an optional slot may be followed by a required one.  What a slot declares therefore depends on
the slots behind it (`Slot.Binds`), and a list of slots is written as a list of parameters, one
for each slot, that is legal (`Surface.Writes`).

What carries this is one step: a slot in front of a list has a question mark only if every
later slot is optional, and slots that are all optional all have one (`Bound.all_question`).
The step knows nothing of where the slots come from, so a part of a surface is written as
legally as the whole of it, with marks of its own; and the options of a hook, which have a
question mark always, may follow any such list.
-/
import ClientForge.Proofs.Client.Forwarding

namespace ClientForge

set_option autoImplicit false

open Text (Within)

/-! ## Declared parameters -/

/-- A parameter as it is declared; `question` tells whether its name has a question mark. -/
structure Binder where
  name : String
  question : Bool
  type : String
  deriving DecidableEq

namespace Binder

/-- What stands between the name and the type. -/
def mark (b : Binder) : String := if b.question then "?: " else ": "

def text (b : Binder) : String := b.name ++ (b.mark ++ b.type)

/-- The texts of two parameters with one name tell their marks and their types apart. -/
theorem eq_of_text {a b : Binder} (name : a.name = b.name) (text : a.text = b.text) : a = b := by
  obtain ⟨first, question, type⟩ := a
  obtain ⟨second, question', type'⟩ := b
  obtain rfl : first = second := name
  have rests : mark ⟨first, question, type⟩ ++ type = mark ⟨first, question', type'⟩ ++ type' :=
    String.append_right_inj first |>.mp text
  -- a question mark and a colon are different first characters
  have characters : (mark ⟨first, question, type⟩).toList ++ type.toList =
      (mark ⟨first, question', type'⟩).toList ++ type'.toList := by
    rw [← String.toList_append, rests, String.toList_append]
  cases question <;> cases question' <;> simp_all [mark]

end Binder

/-- No parameter with a question mark stands in front of one without. -/
def Legal (list : List Binder) : Prop :=
  list.Pairwise fun b later => b.question = true → later.question = true

namespace Legal

instance (list : List Binder) : Decidable (Legal list) :=
  inferInstanceAs (Decidable (List.Pairwise _ list))

/-- A legal list stays legal if a parameter with a question mark follows it. -/
theorem append_question {list : List Binder} (legal : Legal list) {last : Binder}
    (question : last.question = true) : Legal (list ++ [last]) := by
  refine List.pairwise_append.mpr ⟨legal, List.pairwise_singleton _ _, ?_⟩
  intro b _ later single _
  rw [List.mem_singleton.mp single]
  exact question

end Legal

/-! ## Slots -/

/-- What a slot declares in front of others: a required one its type, an optional one a type
that may be undefined where a required one follows, and a question mark where none does. -/
inductive Slot.Binds (slot : Slot) (later : List Slot) : Binder → Prop
  | required (required : slot.optional = false) :
      Binds slot later ⟨slot.name, false, slot.renderedType⟩
  | undefined (optional : slot.optional = true) (followed : ∃ s ∈ later, s.optional = false) :
      Binds slot later ⟨slot.name, false, slot.renderedType ++ " | undefined"⟩
  | question (optional : slot.optional = true) (last : ∀ s ∈ later, s.optional = true) :
      Binds slot later ⟨slot.name, true, slot.renderedType⟩

namespace Slot

theorem exists_binds (slot : Slot) (later : List Slot) :
    ∃ b, slot.Binds later b ∧ slot.render later = b.text := by
  unfold Slot.render
  cases optional : slot.optional with
  | false => exact ⟨_, .required optional, String.append_assoc⟩
  | true =>
      by_cases followed : (later.any fun s => !s.optional) = true
      · have required : ∃ s ∈ later, s.optional = false := by simpa using followed
        refine ⟨_, .undefined optional required, ?_⟩
        simp [followed, Binder.text, Binder.mark, String.append_assoc]
      · have none : ∀ s ∈ later, s.optional = true := by simpa using followed
        refine ⟨_, .question optional none, ?_⟩
        simp [followed, Binder.text, Binder.mark, String.append_assoc]

namespace Binds

variable {slot : Slot} {later : List Slot} {b : Binder}

theorem name_eq (binds : slot.Binds later b) : b.name = slot.name := by
  cases binds <;> rfl

/-- There is no mark and nothing behind the type exactly if the slot is required. -/
theorem eq_plain_iff (binds : slot.Binds later b) :
    b = ⟨slot.name, false, slot.renderedType⟩ ↔ slot.optional = false := by
  cases binds with
  | required required => exact ⟨fun _ => required, fun _ => rfl⟩
  | undefined optional followed => simp [optional]
  | question optional last => simp [optional]

/-- The type may be undefined exactly if a required slot follows an optional one. -/
theorem eq_undefined_iff (binds : slot.Binds later b) :
    b = ⟨slot.name, false, slot.renderedType ++ " | undefined"⟩ ↔
      slot.optional = true ∧ ∃ s ∈ later, s.optional = false := by
  cases binds with
  | required required =>
      constructor
      · intro same
        have types := congrArg Binder.type same
        exact absurd types.symm (by simp)
      · rintro ⟨optional, -⟩
        exact absurd optional (by simp [required])
  | undefined optional followed => exact ⟨fun _ => ⟨optional, followed⟩, fun _ => rfl⟩
  | question optional last => simpa using fun _ => last

/-- A parameter with a question mark has nothing behind the type. -/
theorem eq_question_iff (binds : slot.Binds later b) :
    b = ⟨slot.name, true, slot.renderedType⟩ ↔ b.question = true := by
  cases binds <;> simp

/-- There is a question mark exactly if neither the slot nor a later one is required. -/
theorem question_iff (binds : slot.Binds later b) :
    b.question = true ↔ slot.optional = true ∧ ∀ s ∈ later, s.optional = true := by
  cases binds with
  | required required => simp [required]
  | undefined optional followed => simpa using fun _ => followed
  | question optional last => exact ⟨fun _ => ⟨optional, last⟩, fun _ => rfl⟩

end Binds

end Slot

/-! ## Lists of slots -/

/-- The parameters that slots declare, each in front of the later ones. -/
inductive Bound : List Slot → List Binder → Prop
  | nil : Bound [] []
  | cons {slot : Slot} {later : List Slot} {b : Binder} {list : List Binder}
      (first : slot.Binds later b) (rest : Bound later list) : Bound (slot :: later) (b :: list)

namespace Bound

variable {slots : List Slot} {list : List Binder}

/-- Slots that are all optional are all written with a question mark. -/
theorem all_question (bound : Bound slots list) (optional : ∀ s ∈ slots, s.optional = true) :
    ∀ b ∈ list, b.question = true := by
  induction bound with
  | nil => simp
  | cons first _ ih =>
      obtain ⟨own, later⟩ := List.forall_mem_cons.mp optional
      exact List.forall_mem_cons.mpr ⟨first.question_iff.mpr ⟨own, later⟩, ih later⟩

/-- What slots declare is legal: a slot has a question mark only if all later ones have. -/
theorem legal (bound : Bound slots list) : Legal list := by
  induction bound with
  | nil => exact .nil
  | cons first rest ih =>
      refine .cons (fun b member question => ?_) ih
      exact rest.all_question (first.question_iff.mp question).2 b member

theorem length_eq (bound : Bound slots list) : list.length = slots.length := by
  induction bound with
  | nil => rfl
  | cons _ _ ih => simp [ih]

theorem names_eq (bound : Bound slots list) : list.map Binder.name = slots.map Slot.name := by
  induction bound with
  | nil => rfl
  | cons first _ ih => rw [List.map_cons, List.map_cons, first.name_eq, ih]

/-- At each place stands what the slot of this place declares in front of the later ones. -/
theorem at_place (bound : Bound slots list) {i : Nat} {slot : Slot}
    (there : slots[i]? = some slot) :
    ∃ b, list[i]? = some b ∧ slot.Binds (slots.drop (i + 1)) b := by
  induction bound generalizing i with
  | nil => simp at there
  | cons first _ ih =>
      cases i with
      | zero =>
          obtain rfl : _ = slot := Option.some.inj there
          exact ⟨_, rfl, first⟩
      | succ i => exact ih there

end Bound

namespace Surface

theorem partsOf_bound (slots : List Slot) :
    ∃ list, Bound slots list ∧ partsOf slots = list.map Binder.text := by
  induction slots with
  | nil => exact ⟨[], .nil, rfl⟩
  | cons slot later ih =>
      obtain ⟨b, first, text⟩ := slot.exists_binds later
      obtain ⟨list, rest, texts⟩ := ih
      exact ⟨b :: list, .cons first rest, by rw [partsOf, text, texts, List.map_cons]⟩

/-- How a surface is written: as a legal list with one parameter for each slot, in order.
Which of three forms the part at a place has is told by the slot there and those behind it. -/
structure Writes (s : Surface) (list : List Binder) : Prop where
  parts : s.parts = list.map Binder.text
  length : list.length = s.slots.length
  names : list.map Binder.name = s.names
  required : ∀ (i : Nat) (slot : Slot), s.slots[i]? = some slot →
    (s.parts[i]? = some (slot.name ++ ": " ++ slot.renderedType) ↔ slot.optional = false)
  undefined : ∀ (i : Nat) (slot : Slot), s.slots[i]? = some slot →
    (s.parts[i]? = some (slot.name ++ ": " ++ slot.renderedType ++ " | undefined") ↔
      slot.optional = true ∧ ∃ later ∈ s.slots.drop (i + 1), later.optional = false)
  question : ∀ (i : Nat) (slot : Slot), s.slots[i]? = some slot →
    (s.parts[i]? = some (slot.name ++ "?: " ++ slot.renderedType) ↔
      slot.optional = true ∧ ∀ later ∈ s.slots.drop (i + 1), later.optional = true)
  legal : Legal list

/-- A part has the text of a parameter exactly if it is this parameter. -/
theorem parts_at {s : Surface} {list : List Binder} (bound : Bound s.slots list)
    (texts : s.parts = list.map Binder.text) {i : Nat} {slot : Slot}
    (there : s.slots[i]? = some slot) :
    ∃ b, slot.Binds (s.slots.drop (i + 1)) b ∧ ∀ question type,
      s.parts[i]? = some (Binder.text ⟨slot.name, question, type⟩) ↔
        b = ⟨slot.name, question, type⟩ := by
  obtain ⟨b, at_i, binds⟩ := bound.at_place there
  refine ⟨b, binds, fun question type => ?_⟩
  rw [texts, List.getElem?_map, at_i, Option.map_some, Option.some_inj]
  exact ⟨Binder.eq_of_text binds.name_eq, fun same => same ▸ rfl⟩

theorem exists_writes (s : Surface) : ∃ list, s.Writes list := by
  obtain ⟨list, bound, texts⟩ := partsOf_bound s.slots
  refine ⟨list, ?_⟩
  constructor
  case parts => exact texts
  case length => exact bound.length_eq
  case names => exact bound.names_eq
  case required =>
    intro i slot there
    obtain ⟨b, binds, part⟩ := parts_at bound texts there
    rw [← binds.eq_plain_iff, ← part]
    simp [Binder.text, Binder.mark, String.append_assoc]
  case undefined =>
    intro i slot there
    obtain ⟨b, binds, part⟩ := parts_at bound texts there
    rw [← binds.eq_undefined_iff, ← part]
    simp [Binder.text, Binder.mark, String.append_assoc]
  case question =>
    intro i slot there
    obtain ⟨b, binds, part⟩ := parts_at bound texts there
    rw [← binds.question_iff, ← binds.eq_question_iff, ← part]
    simp [Binder.text, Binder.mark, String.append_assoc]
  case legal => exact bound.legal

/-! ## Parts of a surface -/

/-- Two surfaces that part a third one by the roles of its slots. -/
structure Splits (s : Surface) (roles : List Role) (inner outer : Surface) : Prop where
  inner_order : inner.slots.Sublist s.slots
  outer_order : outer.slots.Sublist s.slots
  inner_roles : ∀ slot, slot ∈ inner.slots ↔ slot ∈ s.slots ∧ slot.role ∈ roles
  outer_roles : ∀ slot, slot ∈ outer.slots ↔ slot ∈ s.slots ∧ slot.role ∉ roles
  disjoint : inner.slots.Disjoint outer.slots
  /-- Every slot is in one of the two, as often as it is in the whole. -/
  exhaustive : (inner.slots ++ outer.slots).Perm s.slots

theorem splits (s : Surface) (roles : List Role) :
    s.Splits roles (s.only roles) (s.without roles) where
  inner_order := List.filter_sublist
  outer_order := List.filter_sublist
  inner_roles _ := mem_only
  outer_roles _ := mem_without
  disjoint := fun _ inside outside => (mem_without.mp outside).2 (mem_only.mp inside).2
  exhaustive := List.filter_append_perm _ _

end Surface

/-! ## Hooks -/

namespace Hook

/-- The last parameter of a hook, as it is declared. -/
def optionsBinder (h : Hook) : Binder where
  name := if h.takesRequestOptions then "options" else "swrOptions"
  question := true
  type :=
    if h.takesRequestOptions then
      bracedList (("swr?: " ++ h.optionsType) ::
        (h.transport.map fun t => t.member ++ "?: " ++ t.type).toList)
    else h.optionsType

theorem optionsBinder_text (h : Hook) : h.optionsParameter = h.optionsBinder.text := by
  unfold Hook.optionsParameter optionsBinder Binder.text Binder.mark
  split <;> rfl

/-- The lines between the parentheses of a hook. -/
def parameterLines (list : List Binder) : List String := list.map fun b => "  " ++ b.text ++ ","

/-- A hook is written with the parameters of its surface and its options after them. -/
theorem parameterLines_within (h : Hook) {list : List Binder}
    (parts : h.surface.parts = list.map Binder.text) :
    Within (String.intercalate "\n" (parameterLines (list ++ [h.optionsBinder]))) h.render := by
  have lines : (h.surface.parts ++ [h.optionsParameter]).map (fun part => "  " ++ part ++ ",") =
      parameterLines (list ++ [h.optionsBinder]) := by
    rw [parts, optionsBinder_text, parameterLines, List.map_append, List.map_append, List.map_map]
    rfl
  have some : parameterLines (list ++ [h.optionsBinder]) ≠ [] := by simp [parameterLines]
  unfold Hook.render
  rw [lines]
  generalize parameterLines (list ++ [h.optionsBinder]) = middle at some ⊢
  rw [List.append_assoc, List.append_assoc, List.append_assoc,
    String.intercalate_append_of_ne_nil (by simp) (by simp [some]),
    String.intercalate_append_of_ne_nil some (by simp)]
  exact (((Within.refl _).left _).left _).right _

end Hook

/-- **Rendered parameter lists are legal.**  Every surface is written as a list of parameters,
one for each slot and in their order, in which a slot has a question mark exactly if neither
it nor a later one is required, and a type that may be undefined exactly if it is optional and
a later one is required.  So is each part of a surface that is taken by roles, and `only` and
`without` part it in two.  The parameters of a key function are such a list, and those of a
hook are one that its options follow. -/
theorem parameterLists_legal :
    (∀ s : Surface, ∃ list, s.Writes list) ∧
    (∀ (s : Surface) (roles : List Role), s.Splits roles (s.only roles) (s.without roles) ∧
      (∃ list, (s.only roles).Writes list) ∧ ∃ list, (s.without roles).Writes list) ∧
    (∀ (c : Contract) (kind : VerbKind),
      (c.hook kind).surface =
        c.surface.without (.options :: if kind = .mutation then [.body] else []) ∧
      (c.hook kind).key.surface = c.surface.only [.path, .query]) ∧
    (∀ k : KeyFunction, ∃ list, k.surface.Writes list ∧
      Within ("export const " ++ k.name ++ " = (" ++
        String.intercalate ", " (list.map Binder.text) ++ ") => [") k.render) ∧
    ∀ h : Hook, ∃ list, h.surface.Writes list ∧ h.optionsParameter = h.optionsBinder.text ∧
      Legal (list ++ [h.optionsBinder]) ∧
      Within (String.intercalate "\n" (Hook.parameterLines (list ++ [h.optionsBinder])))
        h.render := by
  refine ⟨Surface.exists_writes, fun s roles => ?_, fun _ _ => ⟨rfl, rfl⟩, fun k => ?_, fun h => ?_⟩
  · exact ⟨s.splits roles, Surface.exists_writes _, Surface.exists_writes _⟩
  · obtain ⟨list, writes⟩ := k.surface.exists_writes
    exact ⟨list, writes, writes.parts ▸ k.head_within⟩
  · obtain ⟨list, writes⟩ := h.surface.exists_writes
    exact ⟨list, writes, h.optionsBinder_text, writes.legal.append_question rfl,
      h.parameterLines_within writes.parts⟩

/-- The marks change with the part: in front of a required body an optional query has no
question mark, and where the body is left out it has one. -/
example :
    let s : Surface := ⟨[⟨.query, "params", "P", true, none⟩, ⟨.body, "pet", "Pet", false, none⟩,
      ⟨.options, "options", "AxiosRequestConfig", true, none⟩]⟩
    s.parts = ["params: P | undefined", "pet: Pet", "options?: AxiosRequestConfig"] ∧
      (s.without [.options, .body]).parts = ["params?: P"] := by
  decide

end ClientForge
