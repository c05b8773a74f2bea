/-
# ClientForge.Proofs.Types.Dereferencing -- inlining references leaves types as they are

A component schema that a reference was inlined to goes by the name that its reference gave
it, and a reference that was left in place names the schema itself.  Either way its type is
the name, and what stands next to the reference counts for `nullable` only.  So a schema has
the type that it had before its references were inlined (`resolve_expand`), wherever the
walk was cut off.

References have to stand where schemas stand, and refer to plain names (`Plain`).  A
component schema that can itself be null, or is itself a reference, would be seen through
its name (`IsPlainComponent`).
-/
import ClientForge.Proofs.Reference.Expansion
import ClientForge.Proofs.Reference.SchemaName
import ClientForge.Proofs.Types.Reading

namespace ClientForge.Schema

set_option autoImplicit false

open Files Resolver

/-- A value at a position of a schema whose references stand at positions of schemas only,
and are the references of component schemas. -/
inductive Plain : Position → Value → Prop
  | atom (position : Position) (a : Scalar) : Plain position (.atom a)
  | literal {v : Value} : v.ReferenceFree → Plain .literal v
  | noSchema (items : List Value) : Plain .schema (.list items)
  | schema {entries : Entries} :
      (∀ reference, Entries.get? "$ref" entries = some (.str reference) →
        ∃ name, name ≠ "" ∧ IsPlainName name ∧ reference = schemaReference name) →
      Entries.get? schemaNameKey entries = none →
      (∀ key position v, positionOf? key = some position → Entries.get? key entries = some v →
        Plain position v) →
      Plain .schema (.map entries)
  | members {items : List Value} : (∀ v ∈ items, Plain .schema v) → Plain .members (.list items)
  | noMembers {entries : Entries} :
      (∀ reference, Entries.get? "$ref" entries ≠ some (.str reference)) →
      Plain .members (.map entries)
  | noProperties (items : List Value) : Plain .properties (.list items)
  | properties {entries : Entries} :
      (∀ reference, Entries.get? "$ref" entries ≠ some (.str reference)) →
      (∀ entry ∈ entries, Plain .schema entry.2) →
      Plain .properties (.map entries)

/-- A component schema that is no reference, has no name of its own, and is not nullable. -/
def IsPlainComponent (v : Value) : Prop :=
  ∃ entries, v = .map entries ∧ Entries.get? "$ref" entries = none ∧
    Entries.get? schemaNameKey entries = none ∧ Entries.given "nullable" entries = false

/-! ## What stays as it is -/

section Kept

variable {sources : Sources} {base : Path} {active : List String}

/-- Without references there is nothing to expand. -/
theorem expands_of_referenceFree {v w : Value} (expands : Expands sources base active v w)
    (free : v.ReferenceFree) : w = v := by
  induction expands with
  | atom a => rfl
  | @list _ _ items items' length _ ih =>
      have each := (Value.everyMap_list_iff _).mp free
      have same : List.Forall₂ Eq items items' := List.forall₂_iff_zip.mpr
        ⟨length, fun member => (ih _ _ member (each _ (mem_of_mem_zip member))).symm⟩
      rw [List.forall₂_eq_eq_eq] at same
      rw [same]
  | @map _ _ entries entries' none keys _ ih =>
      have each := ((Value.everyMap_map_iff _).mp free).2
      have same : Entries.Pointwise Eq entries entries' := Entries.pointwise_iff.mpr
        ⟨keys, fun _ _ member => (ih _ _ member (each _ (mem_of_mem_zip member))).symm⟩
      have same : List.Forall₂ Eq entries entries' :=
        same.imp fun _ _ both => Prod.ext both.1 both.2
      rw [List.forall₂_eq_eq_eq] at same
      rw [same]
  | active refers => rfl
  | alone refers =>
      have none := ((Value.everyMap_map_iff _).mp free).1
      rw [none] at refers
      cases refers
  | merged refers =>
      have none := ((Value.everyMap_map_iff _).mp free).1
      rw [none] at refers
      cases refers

/-- What is no reference keeps its keys. -/
theorem expands_map {entries : Entries} {w : Value}
    (expands : Expands sources base active (.map entries) w)
    (other : ∀ reference, Entries.get? "$ref" entries ≠ some (.str reference)) :
    ∃ entries', w = .map entries' ∧ Entries.get? "$ref" entries = none ∧
      Entries.Pointwise (Expands sources base active) entries entries' := by
  cases expands with
  | map none keys each => exact ⟨_, rfl, none, Entries.pointwise_iff.mpr ⟨keys, each⟩⟩
  | active refers => exact absurd refers (other _)
  | alone refers => exact absurd refers (other _)
  | merged refers => exact absurd refers (other _)

/-- What is not given is not given afterwards. -/
theorem expands_of_not_truthy {v w : Value} (expands : Expands sources base active v w)
    (falsy : v.truthy = false) : w = v := by
  refine expands_of_referenceFree expands ?_
  cases v with
  | atom a => exact Value.everyMap_atom a
  | list items =>
      cases items with
      | nil => exact (Value.everyMap_list_iff _).mpr (by simp)
      | cons _ _ => cases falsy
  | map entries =>
      cases entries with
      | nil => exact (Value.everyMap_map_iff _).mpr ⟨rfl, by simp⟩
      | cons _ _ => cases falsy

end Kept

/-! ## Types by name -/

section Named

variable {useDates : Bool} {entries : Entries} {name : String}

/-- A reference that was left in place is read as the name of its schema. -/
theorem read_reference
    (refers : Entries.get? "$ref" entries = some (.str (schemaReference name))) :
    read useDates false (.map entries) = .ok (withNull entries (.named name)) := by
  have given : entries.isEmpty = false := by
    cases entries with
    | nil => cases refers
    | cons _ _ => rfl
  have schema := (isSchemaReference_iff _).mpr ⟨name, rfl⟩
  rw [read, given, refers]
  simp only [ofReference, schema, if_true, drop_schemaReference]
  rfl

theorem read_tagged (free : Entries.get? "$ref" entries = none)
    (tag : Entries.get? schemaNameKey entries = some (.str name)) (named : name ≠ "") :
    read useDates false (.map entries) = .ok (withNull entries (.named name)) := by
  have given : entries.isEmpty = false := by
    cases entries with
    | nil => cases tag
    | cons _ _ => rfl
  have known : nameOf? entries = some name := by
    rw [nameOf?, tag]
    exact if_neg named
  rw [read, given, free]
  simp [known]

/-- A reference and a map that is tagged with its name are read alike. -/
theorem alike_of_tagged {fields : Entries}
    (refers : Entries.get? "$ref" entries = some (.str (schemaReference name)))
    (free : Entries.get? "$ref" fields = none)
    (tag : Entries.get? schemaNameKey fields = some (.str name)) (named : name ≠ "")
    (null : Entries.given "nullable" fields = Entries.given "nullable" entries) :
    AlikeAt useDates .schema (.map entries) (.map fields) := by
  refine ⟨?_, ?_⟩
  · cases entries with
    | nil => cases refers
    | cons _ _ =>
        cases fields with
        | nil => cases tag
        | cons _ _ => rfl
  · rw [read_tagged free tag named, read_reference refers, withNull, withNull, null]

end Named

/-! ## What component schemas expand to -/

section Component

variable {sources : Sources} {base : Path} {active : List String} {name : String}

/-- A component schema keeps its name, and is no reference and not nullable afterwards. -/
theorem expands_component {raw w : Value} (component : IsPlainComponent raw)
    (plain : IsPlainName name)
    (expands : Expands sources base active (tagged (schemaReference name) raw) w) :
    ∃ fields, w = .map fields ∧ Entries.get? "$ref" fields = none ∧
      Entries.get? schemaNameKey fields = some (.str name) ∧
      Entries.given "nullable" fields = false := by
  obtain ⟨entries, rfl, free, unnamed, notNull⟩ := component
  have others : ∀ key, key ≠ schemaNameKey →
      Entries.get? key (entries ++ [(.str schemaNameKey, .str name)]) =
        Entries.get? key entries := by
    intro key other
    rw [Entries.get?_append]
    simp [Entries.get?, Ne.symm other]
  have free' := (others "$ref" (by decide)).trans free
  rw [tagged_of_unnamed plain unnamed] at expands
  obtain ⟨fields, rfl, -, pointwise⟩ :=
    expands_map expands fun reference refers => by rw [free'] at refers; cases refers
  refine ⟨fields, rfl, pointwise.get?_none free', ?_, ?_⟩
  · have named : Entries.get? schemaNameKey (entries ++ [(.str schemaNameKey, .str name)]) =
        some (.str name) := by
      rw [Entries.get?_append, unnamed]
      rfl
    obtain ⟨w, found, same⟩ := pointwise.get?_left named
    cases same
    exact found
  · unfold Entries.given at notNull ⊢
    rw [← others "nullable" (by decide)] at notNull
    cases raw : Entries.get? "nullable" (entries ++ [(.str schemaNameKey, .str name)]) with
    | none => rw [pointwise.get?_none raw]; rfl
    | some v =>
        obtain ⟨w, found, same⟩ := pointwise.get?_left raw
        rw [raw] at notNull
        rw [found, expands_of_not_truthy same notNull]
        exact notNull

/-- What opening the reference of a component schema gives. -/
theorem opened_component {inner : Path} {part w : Value}
    (components : ∀ name raw,
      Pointer.follow sources.root ["components", "schemas", name] = some raw →
        IsPlainComponent raw)
    (plain : IsPlainName name)
    (found : sources.target? (schemaReference name) base = some (part, inner))
    (expands : Expands sources inner active part w) :
    ∃ fields, w = .map fields ∧ Entries.get? "$ref" fields = none ∧
      Entries.get? schemaNameKey fields = some (.str name) ∧
      Entries.given "nullable" fields = false := by
  obtain ⟨-, raw, here, rfl⟩ := target?_of_local (isLocal_schemaReference plain) found
  rw [localPart?_schema plain] at here
  exact expands_component (components name raw here) plain expands

end Component

/-! ## Types stay as they are -/

section Types

variable {useDates : Bool} {sources : Sources} {base inner : Path} {active : List String}

/-- A list of schemas that are alike makes no difference as the members of a union. -/
theorem members_alike {items items' : List Value} (length : items.length = items'.length)
    (each : ∀ v w, (v, w) ∈ items.zip items' → AlikeAt useDates .schema v w) :
    AlikeAt useDates .members (.list items) (.list items') := by
  have pairs : List.Forall₂ (AlikeAt useDates .schema) items items' :=
    List.forall₂_iff_zip.mpr ⟨length, fun member => each _ _ member⟩
  exact ⟨length, readItems_congr pairs⟩

/-- Of a map in the place of a list only the number of keys counts. -/
theorem noMembers_alike {entries entries' : Entries}
    (keys : entries.map Prod.fst = entries'.map Prod.fst) :
    AlikeAt useDates .members (.map entries) (.map entries') := by
  have shown : ∀ entries : Entries, readMembers useDates (.map entries) =
      .ok ((entries.map Prod.fst).map fun _ => .unknown) := by
    intro entries
    simp [readMembers, Value.elements?]
  refine ⟨(isEmpty_congr keys).symm, ?_⟩
  rw [shown, shown, keys]

theorem properties_alike {entries entries' : Entries}
    (pointwise : Entries.Pointwise (AlikeAt useDates .schema) entries entries') :
    AlikeAt useDates .properties (.map entries) (.map entries') := by
  obtain ⟨keys, -⟩ := Entries.pointwise_iff.mp pointwise
  exact ⟨(isEmpty_congr keys).symm, fun required => readProperties_congr required pointwise⟩

/-- A schema that is no reference is like one whose parts are like its own. -/
theorem schema_alike {entries entries' : Entries}
    (free : Entries.get? "$ref" entries = none)
    (unnamed : Entries.get? schemaNameKey entries = none)
    (parts : ∀ key position v, positionOf? key = some position →
      Entries.get? key entries = some v → Plain position v)
    (pointwise : Entries.Pointwise
      (fun v w => ∀ position, Plain position v → AlikeAt useDates position v w)
      entries entries') :
    AlikeAt useDates .schema (.map entries) (.map entries') := by
  obtain ⟨keys, -⟩ := Entries.pointwise_iff.mp pointwise
  have empty : entries'.isEmpty = entries.isEmpty := isEmpty_congr keys
  refine ⟨empty.symm, read_congr ⟨empty, ?_, ?_, ?_⟩ false⟩
  · rw [pointwise.get?_none free, free]
  · rw [pointwise.get?_none unnamed, unnamed]
  · intro key position known
    cases here : Entries.get? key entries with
    | none =>
        rw [pointwise.get?_none here]
        exact .none
    | some v =>
        obtain ⟨w, there, alike⟩ := pointwise.get?_left here
        rw [there]
        exact .some (alike position (parts key position v known here))

/-- A reference that stands alone is like the component schema that it was replaced by. -/
theorem alone_alike {entries fields : Entries} {name : String}
    (refers : Entries.get? "$ref" entries = some (.str (schemaReference name)))
    (single : entries.length = 1) (named : name ≠ "")
    (free : Entries.get? "$ref" fields = none)
    (tag : Entries.get? schemaNameKey fields = some (.str name))
    (notNull : Entries.given "nullable" fields = false) :
    AlikeAt useDates .schema (.map entries) (.map fields) := by
  obtain ⟨⟨k, v⟩, rfl⟩ := List.length_eq_one_iff.mp single
  have key : k = .str "$ref" := by
    by_contra other
    rw [Entries.get?_cons_of_ne other] at refers
    cases refers
  have alone : Entries.given "nullable" [(k, v)] = false := by
    rw [key]
    rfl
  exact alike_of_tagged refers free tag named (notNull.trans alone.symm)

/-- A reference with siblings is like the component schema that they are set on: it has no
name of its own among them, and whether it is nullable is for them to say. -/
theorem merged_alike {entries fields beside : Entries} {name : String}
    (refers : Entries.get? "$ref" entries = some (.str (schemaReference name)))
    (unique : (entries.map Prod.fst).Nodup) (named : name ≠ "")
    (unnamed : Entries.get? schemaNameKey entries = none)
    (nullable : ∀ v, Entries.get? "nullable" entries = some v → Plain .literal v)
    (free : Entries.get? "$ref" fields = none)
    (tag : Entries.get? schemaNameKey fields = some (.str name))
    (notNull : Entries.given "nullable" fields = false)
    (pointwise : Entries.Pointwise (Expands sources base active) (siblings entries) beside) :
    AlikeAt useDates .schema (.map entries) (.map (Entries.putAll fields beside)) := by
  obtain ⟨keys, -⟩ := Entries.pointwise_iff.mp pointwise
  have written := Entries.get?_putAll (keys ▸ nodup_siblings unique)
  have unnamed' : Entries.get? schemaNameKey beside = none :=
    pointwise.get?_none ((get?_siblings (by decide) entries).trans unnamed)
  have aside := get?_siblings (show "nullable" ≠ "$ref" by decide) entries
  refine alike_of_tagged refers ?_ ?_ named ?_
  · rw [written, get?_beside keys, free]
    rfl
  · rw [written, unnamed', tag]
    rfl
  · rw [Entries.given, written, Entries.given, ← aside]
    cases here : Entries.get? "nullable" (siblings entries) with
    | none =>
        rw [pointwise.get?_none here, Option.none_or]
        exact notNull
    | some v =>
        obtain ⟨w, there, expands⟩ := pointwise.get?_left here
        rw [aside] at here
        have same : w = v := by
          cases nullable v here with
          | atom => cases expands; rfl
          | literal free => exact expands_of_referenceFree expands free
        rw [there, same]
        rfl

/-- The expansion of a plain schema is like the schema, at every position. -/
theorem expands_alike (useDates : Bool)
    (components : ∀ name raw,
      Pointer.follow sources.root ["components", "schemas", name] = some raw →
        IsPlainComponent raw)
    {v w : Value} (expands : Expands sources base active v w) (distinct : v.DistinctKeys)
    {position : Position} (plain : Plain position v) : AlikeAt useDates position v w := by
  induction expands generalizing position with
  | atom a => exact .refl _ _ _
  | @list base active items items' length each ih =>
      have within := (Value.everyMap_list_iff _).mp distinct
      cases plain with
      | literal free => exact expands_of_referenceFree (.list length each) free
      | noSchema => exact ⟨length, rfl⟩
      | noProperties => exact ⟨length, fun _ => rfl⟩
      | members schemas =>
          refine members_alike length fun v w member => ?_
          have left := mem_of_mem_zip member
          exact ih v w member (within v left) (schemas v left)
  | @map base active entries entries' none keys each ih =>
      obtain ⟨-, within⟩ := (Value.everyMap_map_iff _).mp distinct
      cases plain with
      | literal free => exact expands_of_referenceFree (.map none keys each) free
      | noMembers => exact noMembers_alike keys
      | properties _ schemas =>
          refine properties_alike (Entries.pointwise_iff.mpr ⟨keys, ?_⟩)
          intro entry entry' member
          have left := mem_of_mem_zip member
          exact ih entry entry' member (within entry left) (schemas entry left)
      | schema _ unnamed parts =>
          refine schema_alike none unnamed parts (Entries.pointwise_iff.mpr ⟨keys, ?_⟩)
          intro entry entry' member position plain
          exact ih entry entry' member (within entry (mem_of_mem_zip member)) plain
  | active => exact .refl _ _ _
  | alone refers _ single found opened _ =>
      cases plain with
      | literal free => exact absurd refers (by simp [((Value.everyMap_map_iff _).mp free).1])
      | noMembers other => exact absurd refers (other _)
      | properties other => exact absurd refers (other _)
      | schema references =>
          obtain ⟨name, named, plain, rfl⟩ := references _ refers
          obtain ⟨fields, rfl, free, tag, notNull⟩ := opened_component components plain found opened
          exact alone_alike refers single named free tag notNull
  | merged refers _ _ found opened keys each _ _ =>
      cases plain with
      | literal free => exact absurd refers (by simp [((Value.everyMap_map_iff _).mp free).1])
      | noMembers other => exact absurd refers (other _)
      | properties other => exact absurd refers (other _)
      | schema references unnamed parts =>
          obtain ⟨name, named, plain, rfl⟩ := references _ refers
          obtain ⟨_, same, free, tag, notNull⟩ := opened_component components plain found opened
          cases same
          obtain ⟨unique, -⟩ := (Value.everyMap_map_iff _).mp distinct
          exact merged_alike refers unique named unnamed
            (fun v => parts "nullable" .literal v rfl) free tag notNull
            (Entries.pointwise_iff.mpr ⟨keys, each⟩)

end Types

/-- **Dereferencing does not change types.**  Where all component schemas are plain, a plain
schema has the same type and the same imports after its references were inlined, whichever
references are being expanded at that point and however dates are read. -/
theorem resolve_expand {files : FileTable} {depth : Nat} {base : Path} {r s : Resolver}
    {v w : Value}
    (components : ∀ name raw,
      Pointer.follow r.document ["components", "schemas", name] = some raw →
        IsPlainComponent raw)
    (distinct : v.DistinctKeys) (plain : Plain .schema v)
    (run : expand (openReference files depth) base v r = (.ok w, s)) (useDates : Bool) :
    resolve useDates w false = resolve useDates v false := by
  have grown : Extends files r s :=
    (expand_extends (openReference_extends files depth) base v r).of_run run
  have same : (Sources.of files s).root = r.document := grown.document
  have expands := expand_eq_ok run (Sources.know_of files s)
  rw [← same] at components
  have alike := expands_alike useDates components expands distinct plain
  rw [resolve, resolve, alike.2]

/-- A schema that refers to itself. -/
def nodeSchema : Value :=
  .object [("type", .str "object"), ("properties", .object [("next", schemaNode "Node" [])])]

theorem resolve_expand_nullable_node :
    ∃ w s, expand (openReference ⟨[], [], []⟩ 2) ⟨false, []⟩
        (schemaNode "Node" [("nullable", .bool true)])
        (.start (schemaDocument [("Node", nodeSchema)]) none) = (.ok w, s) ∧
      resolve true w false = resolve true (schemaNode "Node" [("nullable", .bool true)]) false := by
  have run : ∃ w s, expand (openReference ⟨[], [], []⟩ 2) ⟨false, []⟩
      (schemaNode "Node" [("nullable", .bool true)])
      (.start (schemaDocument [("Node", nodeSchema)]) none) = (.ok w, s) := ⟨_, _, rfl⟩
  obtain ⟨w, s, run⟩ := run
  refine ⟨w, s, run, resolve_expand ?_ ?_ ?_ run true⟩
  · intro name raw found
    rw [show (Resolver.start (schemaDocument [("Node", nodeSchema)]) none).document =
      schemaDocument [("Node", nodeSchema)] from rfl, follow_schemaDocument] at found
    by_cases here : name = "Node"
    · cases here
      cases found
      exact ⟨_, rfl, rfl, rfl, rfl⟩
    · rw [List.map_cons, Entries.get?_cons_of_ne (by simpa using Ne.symm here)] at found
      cases found
  · exact (Value.everyMap_map_iff [(.str "$ref", .str (schemaReference "Node")),
      (.str "nullable", .bool true)]).mpr ⟨by decide, by simp [Value.everyMap_atom]⟩
  · refine .schema ?_ rfl ?_
    · intro reference refers
      cases refers
      exact ⟨"Node", by decide, by decide, rfl⟩
    · intro key position v known found
      by_cases refers : key = "$ref"
      · cases refers
        cases known
      · rw [List.map_cons, Entries.get?_cons_of_ne (by simpa using Ne.symm refers)] at found
        by_cases null : key = "nullable"
        · cases null
          cases found
          exact .atom _ _
        · rw [List.map_cons, Entries.get?_cons_of_ne (by simpa using Ne.symm null)] at found
          cases found

end ClientForge.Schema
