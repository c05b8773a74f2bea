/-
# ClientForge.Proofs.Types.Failures -- why a schema describes no type

Reading a schema fails for two reasons: a value has a shape that the rules give no meaning,
or a map in the schema refers to something that is no component schema (`Unreadable`).  Each
part of the reader passes on the failures of what it reads and adds only the first of these;
the second comes from references that were left in place (`read_failsOnly`).
-/
import ClientForge.Proofs.Data.Attempt
import ClientForge.Proofs.Reference.SchemaName
import ClientForge.Proofs.Types.Reading
import ClientForge.Proofs.Types.Structure

namespace ClientForge.Schema

set_option autoImplicit false

open Attempt (FailsOnly)

/-- The reasons why a value describes no type. -/
inductive Unreadable (v : Value) : Failure → Prop
  | illShaped : Unreadable v .illShaped
  | foreign {reference : String} : v.Mentions reference → isSchemaReference reference = false →
      Unreadable v (.of (.foreignReference reference))

theorem Unreadable.whole {v w : Value} {e : Failure} (unreadable : Unreadable v e)
    (part : v.PartOf w) : Unreadable w e := by
  cases unreadable with
  | illShaped => exact .illShaped
  | foreign mentions other => exact .foreign (mentions.whole part) other

/-- A reference to a component schema. -/
def StandsForSchema (reference : Value) : Prop := ∃ name, reference = .str (schemaReference name)

/-- A value in which only component schemas are referred to is unreadable for its shape only. -/
theorem Unreadable.illShaped_of {v : Value} {e : Failure} (unreadable : Unreadable v e)
    (every : v.EveryReference StandsForSchema) :
    e = .illShaped := by
  cases unreadable with
  | illShaped => rfl
  | foreign mentions other =>
      obtain ⟨entries, part, refers⟩ := mentions
      obtain ⟨name, same⟩ := every entries part _ refers
      cases same
      rw [(isSchemaReference_iff _).mpr ⟨name, rfl⟩] at other
      cases other

/-! ## Parts that read no schema -/

section Parts

variable {reasons : Failure → Prop}

theorem ofReference_failsOnly {entries : Entries} {reference : Value}
    (refers : Entries.get? "$ref" entries = some reference) :
    FailsOnly (Unreadable (.map entries)) (ofReference reference) := by
  unfold ofReference
  split
  · rename_i text
    split
    · exact .ok _
    · rename_i other
      exact .error (.foreign ⟨entries, .refl, refers⟩ (Bool.eq_false_iff.mpr other))
  · exact .error .illShaped

theorem literal_failsOnly (shape : reasons .illShaped) (v : Value) :
    FailsOnly reasons (literals.literal v) := by
  unfold literals.literal
  split
  · exact .ok _
  · exact .error shape

theorem literals_failsOnly (shape : reasons .illShaped) (v : Value) :
    FailsOnly reasons (literals v) := by
  unfold literals
  split
  · exact .error shape
  · exact .mapM fun item _ => literal_failsOnly shape item

theorem requiredNames_failsOnly (shape : reasons .illShaped) (v : Option Value) :
    FailsOnly reasons (requiredNames v) := by
  unfold requiredNames
  repeat' split
  all_goals first
    | exact .ok _
    | exact .error shape

theorem stringType_failsOnly (shape : reasons .illShaped) (useDates : Bool)
    (format : Option Value) : FailsOnly reasons (stringType useDates format) := by
  unfold stringType
  repeat' split
  all_goals first
    | exact .ok _
    | exact .error shape

theorem typeNamed_failsOnly (shape : reasons .illShaped) (useDates : Bool) (entries : Entries)
    {array object : Attempt TypeExpr} (inArray : FailsOnly reasons array)
    (inObject : FailsOnly reasons object) (name : Value) :
    FailsOnly reasons (typeNamed useDates entries array object name) := by
  generalize run : typeNamed useDates entries array object name = x
  cases readUnder_of_typeNamed run with
  | string => exact stringType_failsOnly shape useDates _
  | primitive => exact .ok _
  | array => exact inArray
  | object => exact inObject
  | unknown => exact .ok _
  | compound => exact .error shape

theorem objectType_failsOnly (shape : reasons .illShaped) (entries : Entries)
    {properties : List String → Attempt (List (MemberKey × TypeExpr))}
    {additional : Attempt TypeExpr}
    (inProperties : ∀ required, FailsOnly reasons (properties required))
    (inAdditional : FailsOnly reasons additional) :
    FailsOnly reasons (objectType entries properties additional) := by
  have declared : FailsOnly reasons (declaredMembers entries properties) := by
    unfold declaredMembers
    split
    · exact .bind (requiredNames_failsOnly shape _) fun required _ => inProperties required
    · exact .ok []
  have further : FailsOnly reasons (otherMembers entries additional) := by
    unfold otherMembers
    split
    · exact inAdditional.map
    · exact .ok []
    · exact .ok _
  rw [objectType_eq]
  exact .bind declared fun members _ => .bind further fun others _ => .ok _

end Parts

/-! ## Schemas -/

/-- Every part of the value has a type, or is unreadable. -/
def ReadsOrFails (useDates : Bool) (v : Value) : Prop :=
  ∀ u, u.PartOf v → ∀ inlineNamed, FailsOnly (Unreadable u) (read useDates inlineNamed u)

section Reading

variable {useDates : Bool}

theorem readMembers_failsOnly {v : Value} (within : ReadsOrFails useDates v) :
    FailsOnly (Unreadable v) (readMembers useDates v) := by
  unfold readMembers
  split
  · rename_i items
    rw [readItems_eq]
    refine .mapM fun item member => ?_
    have part : item.PartOf (.list items) := .item member .refl
    exact (within item part false).mono fun e unreadable => unreadable.whole part
  · split
    · exact .ok _
    · exact .error .illShaped

theorem readProperties_failsOnly {reasons : Failure → Prop} (shape : reasons .illShaped)
    (required : List String) {properties : Entries}
    (each : ∀ entry ∈ properties, FailsOnly reasons (read useDates false entry.2)) :
    FailsOnly reasons (readProperties useDates required properties) := by
  induction properties with
  | nil => exact .ok []
  | cons entry rest ih =>
      obtain ⟨k, v⟩ := entry
      cases k with
      | str name =>
          rw [readProperties]
          refine .bind (each _ List.mem_cons_self) fun e _ => ?_
          refine .bind (ih fun entry member => each entry (List.mem_cons_of_mem _ member))
            fun members _ => ?_
          exact .ok _
      | _ => exact .error shape

theorem propertiesOf_failsOnly {v : Value} (within : ReadsOrFails useDates v)
    (required : List String) : FailsOnly (Unreadable v) (propertiesOf useDates required v) := by
  cases v with
  | atom a => exact .error .illShaped
  | list items => exact .error .illShaped
  | map properties =>
      refine readProperties_failsOnly .illShaped required fun entry member => ?_
      have part : entry.2.PartOf (.map properties) := .entry member .refl
      exact (within entry.2 part false).mono fun e unreadable => unreadable.whole part

section Keys

variable {entries : Entries}

/-- What is read under a key fails as the value under it does. -/
theorem underKey_failsOnly {α : Type} {key : String} {f : Value → Attempt α} {absent : α}
    (present : ∀ v, Entries.get? key entries = some v → FailsOnly (Unreadable v) (f v)) :
    FailsOnly (Unreadable (.map entries))
      (((Entries.get? key entries).map f).getD (.ok absent)) := by
  cases found : Entries.get? key entries with
  | none => exact .ok absent
  | some v => exact (present v found).mono fun e unreadable => unreadable.whole (.of_get? found)

theorem read_map_failsOnly (each : ∀ entry ∈ entries, ReadsOrFails useDates entry.2)
    (inlineNamed : Bool) :
    FailsOnly (Unreadable (.map entries)) (read useDates inlineNamed (.map entries)) := by
  have within : ∀ {key v}, Entries.get? key entries = some v → ReadsOrFails useDates v :=
    fun found => each _ (Entries.mem_of_get? found)
  have schema : ∀ key, FailsOnly (Unreadable (.map entries)) (readAt useDates key entries) := by
    intro key
    rw [readAt_eq]
    exact underKey_failsOnly fun v found => within found v .refl false
  have members : ∀ key, FailsOnly (Unreadable (.map entries))
      (readMembersAt useDates key entries) := by
    intro key
    rw [readMembersAt_eq]
    exact underKey_failsOnly fun v found => readMembers_failsOnly (within found)
  have array : FailsOnly (Unreadable (.map entries))
      ((readAt useDates "items" entries).map TypeExpr.array) := (schema "items").map
  have object : FailsOnly (Unreadable (.map entries))
      (objectType entries (fun required => readPropertiesAt useDates required entries)
        (readAt useDates "additionalProperties" entries)) := by
    refine objectType_failsOnly .illShaped entries (fun required => ?_)
      (schema "additionalProperties")
    rw [readPropertiesAt_eq]
    exact underKey_failsOnly fun v found => propertiesOf_failsOnly (within found) required
  have typeNamed := typeNamed_failsOnly .illShaped useDates entries array object
  by_cases empty : entries = []
  · subst empty
    exact .ok TypeExpr.unknown
  rw [read_map_eq useDates inlineNamed empty]
  refine FailsOnly.map ?_
  cases decides : ruleFor inlineNamed entries with
  | reference =>
      obtain ⟨reference, refers⟩ := Option.isSome_iff_exists.mp (ruleFor_applies decides)
      rw [readBy, refers]
      exact ofReference_failsOnly refers
  | name => exact .ok _
  | oneOf => exact (members "oneOf").map
  | anyOf => exact (members "anyOf").map
  | allOf => exact (members "allOf").map
  | enum => exact (literals_failsOnly .illShaped _).map
  | const => exact literal_failsOnly .illShaped _
  | type =>
      unfold readBy
      dsimp only
      split
      · exact (FailsOnly.mapM fun type _ => typeNamed type).map
      · exact typeNamed _

end Keys

/-- **Why a schema describes no type.**  It has a value of the wrong shape, or a reference
in it that was left in place stands for no component schema. -/
theorem read_failsOnly (useDates : Bool) (v : Value) : ReadsOrFails useDates v := by
  induction v with
  | atom a =>
      intro u part
      cases part
      exact fun _ => .ok TypeExpr.unknown
  | list items ih =>
      intro u part
      cases part with
      | refl => exact fun _ => .ok TypeExpr.unknown
      | item member part => exact ih _ member u part
  | map entries ih =>
      intro u part
      cases part with
      | refl => exact read_map_failsOnly ih
      | entry member part => exact ih _ member u part

end Reading

end ClientForge.Schema
