/-
# ClientForge.Proofs.Models.Refusals -- why the models module is not built

For component schemas of the right shape (`IsComponent`) the module is built, or there is a report:
nothing else goes wrong (`build_reports`).  What an `allOf` of plain objects is put together to has
the right shape again (`together_shaped`), so the rules for interfaces are looked at once.

The component itself is read under other rules than what stands in it, since its own name is passed
over; `readBy_failsOnly` therefore holds for whichever rule applies.
-/
import ClientForge.Proofs.Models.Merging
import ClientForge.Proofs.Operation.Shapes
import ClientForge.Proofs.Types.Refusals

namespace ClientForge

set_option autoImplicit false

open Attempt (FailsOnly)
open Schema (HasShape)

/-- There is a report. -/
def Failure.IsReport (e : Failure) : Prop := ∃ report, e = .reported report

/-! ## Reading a schema -/

namespace Schema

variable {useDates : Bool} {entries : Entries}

/-- Whatever rule applies, a schema of the right shape is read or there is a report. -/
theorem readBy_failsOnly (shaped : HasShape .schema (.map entries)) {inlineNamed : Bool}
    {rule : Rule} (applies : rule.Applies inlineNamed entries) :
    (readBy useDates entries rule).FailsOnly Failure.IsReport := by
  have children : RefusesChildren useDates entries := fun v _ shaped =>
    read_refusedIff useDates v shaped
  have joined : ∀ (rule : Rule) {key : String} {c : Connective} {f : List TypeExpr → TypeExpr},
      rule.joins? = some (key, c) → shapeOf? key = some .schemas →
      Entries.given key entries = true →
      FailsOnly Failure.IsReport ((readMembersAt useDates key entries).map f) := by
    intro rule key c f joins known given
    obtain ⟨v, found⟩ := exists_of_given given
    cases shaped.under known found with
    | schemas each => exact (readMembersAt_refusedIff joins found each children).failsOnly.map
  cases rule with
  | reference =>
      obtain ⟨v, found⟩ := Option.isSome_iff_exists.mp applies
      cases shaped.under (by decide : shapeOf? "$ref" = some .text) found with
      | text reference =>
          rw [readBy, found]
          exact (ofReference_refusedIff reference).failsOnly
  | name => exact .ok _
  | oneOf => exact joined .oneOf rfl (by decide) applies
  | anyOf => exact joined .anyOf rfl (by decide) applies
  | allOf => exact joined .allOf rfl (by decide) applies
  | enum =>
      obtain ⟨v, found⟩ := exists_of_given applies
      cases shaped.under (by decide : shapeOf? "enum" = some .literals) found with
      | literals each =>
          obtain ⟨es, run⟩ := literals_eq_ok each
          rw [readBy, found, Option.getD_some, run]
          exact .ok _
  | const =>
      obtain ⟨v, found⟩ := Option.isSome_iff_exists.mp applies
      cases shaped.under (by decide : shapeOf? "const" = some .literal) found with
      | literal json =>
          rw [readBy, found, Option.getD_some, literal_eq_ok json]
          exact .ok _
  | type =>
      have text := typesOf_text shaped
      rcases readBy_type useDates entries with run | ⟨name, only, run⟩
      · rw [run]
        refine FailsOnly.map (.mapM fun name member => ?_)
        exact (typeNamed_refusedIff shaped children (text name member)).failsOnly
      · rw [run]
        exact (typeNamed_refusedIff shaped children
          (text name (only ▸ List.mem_cons_self))).failsOnly

theorem read_reports (inlineNamed : Bool) {v : Value} (shaped : HasShape .schema v) :
    (read useDates inlineNamed v).FailsOnly Failure.IsReport := by
  cases shaped with
  | @schema entries each =>
      by_cases empty : entries = []
      · subst empty
        exact .ok _
      · rw [read_map_eq useDates inlineNamed empty]
        exact (readBy_failsOnly (.schema each) (ruleFor_applies rfl)).map

end Schema

namespace Model

/-- A component schema: its name is a text, and it has the right shape. -/
def IsComponent (entry : Scalar × Value) : Prop :=
  (∃ s, entry.1 = .str s) ∧ HasShape .schema entry.2

/-- Properties are named and shaped as component schemas are. -/
theorem properties_shaped {entries : Entries} (shaped : HasShape .schema (.map entries)) :
    Api.MapAt "properties" (fun properties => ∀ entry ∈ properties, IsComponent entry) entries := by
  intro v found
  cases shaped.under (by decide : Schema.shapeOf? "properties" = some .properties) found with
  | @properties fields inside =>
      refine ⟨_, rfl, fun entry member => ?_⟩
      obtain ⟨field, among, rfl⟩ := List.mem_map.mp member
      exact ⟨⟨field.1, rfl⟩, inside field among⟩

/-! ## Members that are put together -/

section Together

variable {m : Value} {members : List Value}

theorem propertiesOf_shaped (shaped : HasShape .schema m) :
    ∀ entry ∈ propertiesOf m, IsComponent entry := by
  cases shaped with
  | @schema entries each =>
      unfold propertiesOf
      dsimp only
      split
      · rename_i properties found
        obtain ⟨_, same, inside⟩ := properties_shaped (.schema each) _ found
        cases same
        exact inside
      · exact fun _ member => absurd member List.not_mem_nil

theorem requiredItems_shaped (shaped : HasShape .schema m) :
    ∀ item ∈ requiredItems m, ∃ s, Value.str s = item := by
  cases shaped with
  | @schema entries each =>
      unfold requiredItems
      dsimp only
      split
      · rename_i items found
        have shape : HasShape .texts (.list items) := each "required" .texts _ (by decide) found
        cases shape with
        | texts names =>
            intro item member
            obtain ⟨s, -, same⟩ := List.mem_map.mp member
            exact ⟨s, same⟩
      · exact fun _ member => absurd member List.not_mem_nil

/-- Every property that is left was declared somewhere. -/
theorem putAll_components {declared : Entries} (each : ∀ entry ∈ declared, IsComponent entry) :
    ∀ entry ∈ Entries.putAll [] declared, IsComponent entry := by
  obtain ⟨names, keys⟩ : ∃ names : List String, declared.map Prod.fst = names.map .str := by
    refine exists_eq_map fun key member => ?_
    obtain ⟨entry, there, rfl⟩ := List.mem_map.mp member
    obtain ⟨s, same⟩ := (each entry there).1
    exact ⟨s, same.symm⟩
  intro entry member
  obtain ⟨name, -, key, front, back, whole, -⟩ :=
    exists_of_mem_right (putAll_declared keys) member
  have origin : (Scalar.str name, entry.2) ∈ declared := by
    rw [whole]
    exact List.mem_append_right _ List.mem_cons_self
  exact ⟨⟨name, key⟩, (each _ origin).2⟩

/-- Members of the right shape are put together to a schema of the right shape. -/
theorem together_shaped (each : ∀ m ∈ members, HasShape .schema m) :
    HasShape .schema (.map (together members)) := by
  have declared : ∀ entry ∈ declarations members, IsComponent entry := by
    intro entry member
    obtain ⟨m, among, inside⟩ := List.mem_flatMap.mp member
    exact propertiesOf_shaped (each m among) entry inside
  have left := putAll_components declared
  obtain ⟨fields, listed⟩ : ∃ fields : List (String × Value),
      Entries.putAll [] (declarations members) =
        fields.map fun field => (.str field.1, field.2) := by
    refine exists_eq_map fun entry member => ?_
    obtain ⟨name, key⟩ := (left entry member).1
    exact ⟨(name, entry.2), Prod.ext key.symm rfl⟩
  have properties : HasShape .properties (.map (Entries.putAll [] (declarations members))) := by
    rw [listed] at left ⊢
    exact .properties fun field among => (left _ (List.mem_map.mpr ⟨field, among, rfl⟩)).2
  obtain ⟨texts, items⟩ : ∃ texts : List String,
      members.flatMap requiredItems = texts.map .str := by
    refine exists_eq_map fun item member => ?_
    obtain ⟨m, among, inside⟩ := List.mem_flatMap.mp member
    exact requiredItems_shaped (each m among) item inside
  show HasShape .schema (.object [("type", .str "object"),
    ("properties", .map (Entries.putAll [] (declarations members))),
    ("required", .list (members.flatMap requiredItems))])
  refine Schema.hasShape_object fun field member shape known => ?_
  simp only [List.mem_cons, List.not_mem_nil, or_false] at member
  rcases member with rfl | rfl | rfl
  · cases known
    exact .oneText "object"
  · cases known
    exact properties
  · cases known
    rw [items]
    exact .texts texts

end Together

/-! ## Declarations -/

section Declarations

variable {useDates : Bool} {name : String} {entries : Entries}

theorem interfaceOf_reports (shaped : HasShape .schema (.map entries)) :
    (interfaceOf useDates name entries).FailsOnly Failure.IsReport := by
  obtain ⟨required, listed⟩ := Schema.requiredNames_eq_ok fun w here =>
    shaped.under (by decide : Schema.shapeOf? "required" = some Schema.Shape.texts) here
  unfold interfaceOf
  rw [listed]
  refine .bind (.ok required) fun _ same => ?_
  cases same
  refine Api.bind_mapAt_failsOnly (fun bad => absurd (properties_shaped shaped) bad)
    (fun _ member => absurd member List.not_mem_nil) fun properties good => ?_
  have each : ∀ entry ∈ properties, IsComponent entry := by
    by_contra bad
    obtain ⟨_, impossible⟩ := good bad
    cases impossible
  refine .bind (.mapM fun entry inside => ?_) fun ms _ => ?_
  · obtain ⟨⟨text, key⟩, own⟩ := each entry inside
    refine .bind (Schema.read_reports false own) fun type _ => ?_
    rw [key]
    exact .bind (.ok text) fun _ _ => .ok _
  split
  · rename_i entry rest found
    cases shaped.under (by decide : Schema.shapeOf? "additionalProperties" = some .flagOrSchema)
      found with
    | further inner => exact .bind (Schema.read_reports false inner) fun _ _ => .ok _
  · exact .ok _

theorem ofSchema_reports {schema : Value} (shaped : HasShape .schema schema) :
    (ofSchema useDates name schema).FailsOnly Failure.IsReport := by
  cases shaped with
  | @schema entries each =>
      have own : HasShape .schema (.map entries) := .schema each
      unfold ofSchema
      refine .bind (.ok entries) fun _ same => ?_
      cases same
      split
      · rename_i merged found
        unfold mergedAllOf? at found
        split at found
        · rename_i members there
          obtain ⟨-, -, rfl⟩ := merged?_eq_some_iff.mp found
          have shape : HasShape .schemas (.list members) :=
            each "allOf" .schemas _ (by decide) there
          cases shape with
          | schemas inside => exact interfaceOf_reports (together_shaped inside)
        · cases found
      · split
        · exact interfaceOf_reports own
        · exact .bind (Schema.read_reports true own) fun _ _ => .ok _

end Declarations

end Model

namespace ModelsFile

open Model (IsComponent)

/-- **The models module is built from component schemas of the right shape, or there is a
report.** -/
theorem build_reports (useDates : Bool) (schemas : List (Scalar × Value))
    (contracts : List Contract) :
    (build useDates schemas contracts).result.FailsOnly fun e =>
      e.IsReport ∨ ∃ entry ∈ schemas, ¬ IsComponent entry := by
  unfold build
  refine Traced.bind_failsOnly ?_ fun file _ => Traced.foldlM_failsOnly fun c _ file => ?_
  · by_cases each : ∀ entry ∈ schemas, IsComponent entry
    · refine Traced.foldlM_failsOnly fun entry member file => ?_
      obtain ⟨⟨text, key⟩, shaped⟩ := each entry member
      unfold addSchema
      rw [key]
      refine Traced.bind_failsOnly (.ok text) fun _ _ => ?_
      dsimp only
      split
      · exact .ok _
      · exact Traced.bind_failsOnly
          ((Model.ofSchema_reports shaped).mono fun _ => Or.inl) fun _ _ => .ok _
    · push Not at each
      exact fun _ _ => Or.inr each
  · refine Traced.foldlM_failsOnly fun d _ file => ?_
    unfold addDeclaration
    split
    · exact .ok _
    · exact .ok _

end ModelsFile

end ClientForge
