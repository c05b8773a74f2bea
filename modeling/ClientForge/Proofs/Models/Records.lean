/-
# ClientForge.Proofs.Models.Records -- the members of an object, wherever it is declared

A record is a schema of type object whose properties decide about it: it refers to nothing, is not
put together from other schemas, and is no enumeration or constant (`Schema.IsRecord`).  Its type
has one member for each property, in order, which may be missing unless it is required
(`Schema.keysOf`).  Whether the type is written out, declared as an alias or declared as an
interface, its members have these keys (`IsRecord.propertyKeys`, `Model.ofSchema_propertyKeys`).

The resolver goes through a record without changing what it is: the schemas of its properties may
change, their names and what is required may not (`Expands.record`).  So a component of a document
and whatever a reference to it is replaced by are records with the same members
(`component_record`, `Expands.record_reference`), unless what stands next to the reference takes
the place of a key that decides about them.
-/
import ClientForge.Proofs.Models.SchemaNames
import ClientForge.Proofs.Models.Spelling

namespace ClientForge

set_option autoImplicit false

/-- The keys of the properties that an object type declares, if it may be null or not. -/
def TypeExpr.propertyKeys : TypeExpr → List MemberKey
  | .object members => (members.map Prod.fst).filter (· ≠ .index)
  | .nullable base => base.propertyKeys
  | _ => []

namespace Schema

/-- A schema of an object with properties, which decide about its type, its name aside. -/
structure IsRecord (entries : Entries) (required : List String)
    (properties : List (String × Value)) : Prop where
  rule : ruleFor true entries = .type
  object : Entries.get? "type" entries = some (.str "object")
  declares : Entries.get? "properties" entries = some (.object properties)
  some : properties ≠ []
  requires : requiredNames (Entries.get? "required" entries) = .ok required

/-- The keys of the members for properties, which may be missing unless they are required. -/
def keysOf (required names : List String) : List MemberKey :=
  names.map fun name => .property name (!required.contains name)

/-! ## Types -/

section Types

variable {useDates : Bool} {entries : Entries} {required : List String}
  {properties : List (String × Value)}

theorem areMembers_of_readProperties {properties : Entries} {members : List (MemberKey × TypeExpr)}
    (run : readProperties useDates required properties = .ok members) :
    AreMembers useDates required.contains properties members := by
  induction properties generalizing members with
  | nil =>
      cases run
      exact .nil
  | cons entry rest ih =>
      obtain ⟨k, v⟩ := entry
      cases k with
      | str name =>
          rw [readProperties] at run
          obtain ⟨e, type, run⟩ := Attempt.bind_eq_ok run
          obtain ⟨others, later, run⟩ := Attempt.bind_eq_ok run
          cases run
          exact .cons ⟨name, e, rfl, type, rfl⟩ (ih later)
      | _ => cases run

theorem areMembers_keys {members : List (MemberKey × TypeExpr)}
    (declared : AreMembers useDates required.contains
      (properties.map fun p => (.str p.1, p.2)) members) :
    members.map Prod.fst = keysOf required (properties.map Prod.fst) := by
  induction properties generalizing members with
  | nil =>
      cases declared
      rfl
  | cons p rest ih =>
      cases declared with
      | cons first later =>
          obtain ⟨name, e, ⟨⟩, -, rfl⟩ := first
          rw [List.map_cons, ih later]
          rfl

/-- The member for all other properties does not count. -/
theorem propertyKeys_object {members others : List (MemberKey × TypeExpr)}
    (declared : AreMembers useDates required.contains
      (properties.map fun p => (.str p.1, p.2)) members)
    (index : ∀ other ∈ others, other.1 = .index) :
    (TypeExpr.object (members ++ others)).propertyKeys =
      keysOf required (properties.map Prod.fst) := by
  have own : (keysOf required (properties.map Prod.fst)).filter (· ≠ .index) =
      keysOf required (properties.map Prod.fst) := by
    refine List.filter_eq_self.mpr fun key member => ?_
    obtain ⟨name, -, rfl⟩ := List.mem_map.mp member
    rfl
  have none : (others.map Prod.fst).filter (· ≠ .index) = [] := by
    refine List.filter_eq_nil_iff.mpr fun key member => ?_
    obtain ⟨other, there, rfl⟩ := List.mem_map.mp member
    simpa using index other there
  rw [TypeExpr.propertyKeys, List.map_append, List.filter_append, areMembers_keys declared, own,
    none, List.append_nil]

theorem propertyKeys_withNull (entries : Entries) (e : TypeExpr) :
    (withNull entries e).propertyKeys = e.propertyKeys := by
  unfold withNull
  split
  · rfl
  · rfl

/-- The properties decide where no key does that stands for another schema. -/
theorem ruleFor_type_iff : ruleFor true entries = .type ↔
    Entries.get? "$ref" entries = none ∧
      (∀ key ∈ ["oneOf", "anyOf", "allOf", "enum"], Entries.given key entries = false) ∧
      Entries.get? "const" entries = none := by
  unfold ruleFor
  split_ifs <;> simp_all [Entries.has, Option.isSome_iff_ne_none]

namespace IsRecord

variable (record : IsRecord entries required properties)
include record

theorem filled : entries ≠ [] := by
  rintro rfl
  cases record.object

theorem given : Entries.given "properties" entries = true := by
  rw [Entries.given, record.declares]
  cases properties with
  | nil => exact absurd rfl record.some
  | cons _ _ => rfl

/-- Where the name of a record does not count, its properties decide. -/
theorem ruleFor {inlineNamed : Bool} (unnamed : inlineNamed = true ∨ nameOf? entries = none) :
    ruleFor inlineNamed entries = .type := by
  rcases unnamed with rfl | unnamed
  · exact record.rule
  · rw [← record.rule]
    simp [Schema.ruleFor, unnamed]

/-- A record with a name is written as the name. -/
theorem read_named {name : String} (goesBy : nameOf? entries = Option.some name) :
    read useDates false (.map entries) = .ok (withNull entries (.named name)) := by
  have rule : Schema.ruleFor false entries = .name := by
    rw [Schema.ruleFor, Entries.has, (ruleFor_type_iff.mp record.rule).1, goesBy]
    rfl
  rw [read_map_eq useDates false record.filled, rule, readBy, goesBy]
  rfl

/-- **The type of a record has a member for each property**, in order. -/
theorem propertyKeys {inlineNamed : Bool} {e : TypeExpr}
    (unnamed : inlineNamed = true ∨ nameOf? entries = none)
    (run : read useDates inlineNamed (.map entries) = .ok e) :
    (∃ members, e = withNull entries (.object members)) ∧
      e.propertyKeys = keysOf required (properties.map Prod.fst) := by
  rw [read_map_eq useDates inlineNamed record.filled, record.ruleFor unnamed, readBy,
    record.object] at run
  obtain ⟨type, typed, rfl⟩ := Attempt.map_eq_ok run
  simp only [Option.getD_some, typeNamed, String.reduceEq, or_self, if_true, if_false] at typed
  rw [objectType_eq] at typed
  obtain ⟨members, declared, typed⟩ := Attempt.bind_eq_ok typed
  obtain ⟨others, further, typed⟩ := Attempt.bind_eq_ok typed
  cases typed
  refine ⟨⟨_, rfl⟩, ?_⟩
  rw [declaredMembers, if_pos record.given, record.requires] at declared
  have declared : readPropertiesAt useDates required entries = .ok members := declared
  rw [readPropertiesAt_eq, record.declares] at declared
  have index : ∀ other ∈ others, other.1 = .index := by
    unfold otherMembers at further
    split at further
    · obtain ⟨e, -, rfl⟩ := Attempt.map_eq_ok further
      exact List.forall_mem_singleton.mpr rfl
    · cases further
      exact List.forall_mem_nil _
    · rw [if_pos record.given] at further
      cases further
      exact List.forall_mem_nil _
  rw [propertyKeys_withNull]
  exact propertyKeys_object (areMembers_of_readProperties declared) index

end IsRecord

end Types

end Schema

/-! ## Models -/

namespace Model

open Schema

variable {useDates : Bool} {name : String} {entries : Entries} {required : List String}
  {properties : List (String × Value)} {model : Model}

theorem mergedAllOf?_of_notGiven (notGiven : Entries.given "allOf" entries = false) :
    mergedAllOf? entries = none := by
  unfold Entries.given at notGiven
  unfold mergedAllOf?
  split
  · rename_i members found
    rw [found] at notGiven
    cases members with
    | nil => rfl
    | cons _ _ => cases notGiven
  · rfl

/-- **The declaration of a record has a member for each property**, in order, whether it is an
interface or an alias. -/
theorem ofSchema_propertyKeys (record : IsRecord entries required properties)
    (run : ofSchema useDates name (.map entries) = .ok model) :
    ∃ type, model.type? = some type ∧
      type.propertyKeys = keysOf required (properties.map Prod.fst) := by
  have noMerge := mergedAllOf?_of_notGiven
    ((ruleFor_type_iff.mp record.rule).2.1 "allOf" (by decide))
  unfold ofSchema at run
  simp only [Api.asMap, bind, Except.bind, noMerge] at run
  split at run
  · obtain ⟨_, _, members, others, listed, found, declared, index, rfl⟩ := interfaceOf_members run
    rw [record.requires] at listed
    rw [Api.mapAt, record.declares] at found
    cases listed
    cases found
    refine ⟨_, rfl, propertyKeys_object declared ?_⟩
    obtain ⟨-, rfl⟩ | ⟨_, e, -, -, rfl⟩ := index
    · exact List.forall_mem_nil _
    · exact List.forall_mem_singleton.mpr rfl
  · obtain ⟨type, read, run⟩ := Attempt.bind_eq_ok run
    cases run
    exact ⟨type, rfl, (record.propertyKeys (Or.inl rfl) read).2⟩

end Model

namespace ModelsFile

section Build

variable {useDates : Bool} {f g file : ModelsFile} {before after : List (Scalar × Value)}
  {contracts : List Contract} {name : String} {schema : Value}

/-- A schema whose type name no earlier one has is declared. -/
theorem foldlM_addSchema_first (free : Naming.pascal name ∉ f.names)
    (first : ∀ other v, (.str other, v) ∈ before → Naming.pascal other ≠ Naming.pascal name)
    (run : ((before ++ (.str name, schema) :: after).foldlM (addSchema useDates) f).result =
      .ok g) :
    ∃ model ∈ g.models, Model.ofSchema useDates (Naming.pascal name) schema = .ok model := by
  induction before generalizing f with
  | nil =>
      rw [List.nil_append, List.foldlM_cons] at run
      obtain ⟨middle, step, run⟩ := Traced.bind_eq_ok run
      obtain ⟨_, ⟨⟩, ⟨taken, -⟩ | ⟨-, model, described, rfl⟩⟩ := addSchema_eq_ok step
      · exact absurd taken free
      · have kept := foldlM_keeps (fun _ _ _ step => (addSchema_grows step).1.keeps) run
        exact ⟨model, kept model (List.mem_append_right _ (List.mem_singleton_self _)), described⟩
  | cons entry rest ih =>
      rw [List.cons_append, List.foldlM_cons] at run
      obtain ⟨middle, step, run⟩ := Traced.bind_eq_ok run
      refine ih (fun there => ?_) (fun other v member => first other v (.tail _ member)) run
      obtain ⟨model, member, same⟩ := List.mem_map.mp there
      rcases (addSchema_grows step).1.new model member with old | ⟨other, key, described⟩
      · exact free (same ▸ List.mem_map_of_mem old)
      · obtain ⟨_, v⟩ := entry
        cases key
        exact first other v List.mem_cons_self ((Model.ofSchema_eq_ok described).1.symm.trans same)

/-- **A component schema is declared** in the models module if no schema before it has its type
name. -/
theorem build_model
    (first : ∀ other v, (.str other, v) ∈ before → Naming.pascal other ≠ Naming.pascal name)
    (run : (build useDates (before ++ (.str name, schema) :: after) contracts).result = .ok file) :
    ∃ model ∈ file.models, Model.ofSchema useDates (Naming.pascal name) schema = .ok model := by
  unfold build at run
  obtain ⟨middle, inSchemas, run⟩ := Traced.bind_eq_ok run
  obtain ⟨model, member, described⟩ := foldlM_addSchema_first List.not_mem_nil first inSchemas
  have grows : ∀ (c : Contract) f g, (addContract f c).result = .ok g → Grows (Described []) f g :=
    fun c f g step => (addContract_grows (fun d _ => described_declared [] d) step).1
  have kept := foldlM_keeps (fun c f g step => (grows c f g step).keeps) run
  exact ⟨model, kept model member, described⟩

end Build

end ModelsFile

/-! ## Documents -/

namespace Schema.IsRecord

variable {entries fields : Entries} {required : List String} {properties : List (String × Value)}

/-- The keys that decide about the members of a record. -/
def keys : List String :=
  ["$ref", "oneOf", "anyOf", "allOf", "enum", "const", "type", "properties", "required"]

/-- A record is one by the values under these keys. -/
theorem congr (record : IsRecord entries required properties)
    (same : ∀ key ∈ keys, Entries.get? key fields = Entries.get? key entries) :
    IsRecord fields required properties where
  rule := by
    obtain ⟨free, single, constant⟩ := ruleFor_type_iff.mp record.rule
    refine ruleFor_type_iff.mpr ⟨(same _ (by decide)).trans free, fun key member => ?_,
      (same _ (by decide)).trans constant⟩
    have among : key ∈ keys := List.mem_cons_of_mem _ (List.mem_append_left
      ["const", "type", "properties", "required"] member)
    rw [← single key member, Entries.given, Entries.given, same key among]
  object := (same _ (by decide)).trans record.object
  declares := (same _ (by decide)).trans record.declares
  some := record.some
  requires := (congrArg requiredNames (same _ (by decide))).trans record.requires

end Schema.IsRecord

namespace Resolver

open Schema

variable {sources : Sources} {base : Files.Path} {active : List String} {entries part : Entries}
  {required : List String} {properties : List (String × Value)} {name : String} {w : Value}

/-- The keys of a map of texts. -/
theorem exists_object {R : Value → Value → Prop} {fields : Entries}
    (pointwise : Entries.Pointwise R (properties.map fun p => (.str p.1, p.2)) fields) :
    ∃ properties' : List (String × Value), Value.map fields = .object properties' ∧
      properties'.map Prod.fst = properties.map Prod.fst := by
  induction properties generalizing fields with
  | nil =>
      cases pointwise
      exact ⟨[], rfl, rfl⟩
  | cons p rest ih =>
      cases pointwise with
      | @cons _ entry _ fields both later =>
          obtain ⟨properties', same, names⟩ := ih later
          obtain ⟨k, v⟩ := entry
          obtain ⟨rfl, -⟩ := both
          refine ⟨(p.1, v) :: properties', ?_, by rw [List.map_cons, List.map_cons, names]⟩
          rw [Value.map.inj same]
          rfl

/-- The names that are required stay the same, if they are not the keys of a map. -/
theorem expands_requiredNames {v : Value} (expands : Expands sources base active v w)
    (notMap : ∀ fields, v ≠ .map fields) (listed : requiredNames (some v) = .ok required) :
    w = v := by
  refine expands_of_referenceFree expands ?_
  cases v with
  | atom a => exact Value.everyMap_atom a
  | map fields => exact absurd rfl (notMap fields)
  | list items =>
      refine (Value.everyMap_list_iff items).mpr fun item member => ?_
      simp only [requiredNames, Value.elements?] at listed
      split at listed
      · rename_i scalars
        have scalar := List.all_eq_true.mp scalars item member
        cases item with
        | atom a => exact Value.everyMap_atom a
        | list _ => cases scalar
        | map _ => cases scalar
      · cases listed

/-- **A record stays a record**, with the same names, if no property makes a reference of the map
of properties. -/
theorem Expands.record (expands : Expands sources base active (.map entries) w)
    (record : IsRecord entries required properties) (noReference : "$ref" ∉ properties.map Prod.fst)
    (notMap : ∀ fields, Entries.get? "required" entries ≠ some (.map fields)) :
    ∃ fields properties', w = .map fields ∧
      Entries.Pointwise (Expands sources base active) entries fields ∧
      IsRecord fields required properties' ∧
      properties'.map Prod.fst = properties.map Prod.fst := by
  obtain ⟨free, single, constant⟩ := ruleFor_type_iff.mp record.rule
  obtain ⟨fields, rfl, -, pointwise⟩ :=
    expands_map expands fun reference refers => by rw [free] at refers; cases refers
  obtain ⟨w, object, same⟩ := pointwise.get?_left record.object
  cases same
  obtain ⟨w, declares, inner⟩ := pointwise.get?_left record.declares
  have noKey : ∀ reference, Entries.get? "$ref" (properties.map fun p => (.str p.1, p.2)) ≠
      some (.str reference) := by
    intro reference refers
    obtain ⟨p, member, same⟩ := List.mem_map.mp (Entries.mem_of_get? refers)
    have named : p.1 = "$ref" := Scalar.str.inj (Prod.mk.inj same).1
    exact noReference (named ▸ List.mem_map_of_mem member)
  obtain ⟨inProperties, rfl, -, each⟩ := expands_map inner noKey
  obtain ⟨properties', same, names⟩ := exists_object each
  rw [same] at declares
  refine ⟨fields, properties', rfl, pointwise, ⟨?_, object, declares, ?_, ?_⟩, names⟩
  · refine ruleFor_type_iff.mpr ⟨pointwise.get?_none free, fun key member => ?_,
      pointwise.get?_none constant⟩
    have notGiven := single key member
    unfold Entries.given at notGiven ⊢
    cases found : Entries.get? key entries with
    | none => rw [pointwise.get?_none found]; rfl
    | some v =>
        obtain ⟨w, found', expands⟩ := pointwise.get?_left found
        rw [found] at notGiven
        rw [found', expands_of_not_truthy expands notGiven]
        exact notGiven
  · rintro rfl
    exact record.some (List.map_eq_nil_iff.mp names.symm)
  · have requires := record.requires
    cases found : Entries.get? "required" entries with
    | none =>
        rw [found] at requires
        rw [pointwise.get?_none found, requires]
    | some v =>
        obtain ⟨w, found', expands⟩ := pointwise.get?_left found
        rw [found] at requires
        rw [found', expands_requiredNames expands (fun fields same => notMap fields (same ▸ found))
          requires, requires]

/-- **What a reference to a record is replaced by** is a record with the same names, under the name
of the reference, if nothing next to it takes the place of a key that decides about this. -/
theorem Expands.record_reference (plain : IsPlainName name) (given : name ≠ "")
    (found : localPart? sources.root (schemaReference name) = some (.map part))
    (unnamed : Entries.get? schemaNameKey part = none)
    (record : IsRecord part required properties) (noReference : "$ref" ∉ properties.map Prod.fst)
    (notMap : ∀ fields, Entries.get? "required" part ≠ some (.map fields))
    (refers : Entries.get? "$ref" entries = some (.str (schemaReference name)))
    (beside : ∀ key ∈ schemaNameKey :: IsRecord.keys.tail, Entries.get? key entries = none)
    (inactive : schemaReference name ∉ active)
    (expands : Expands sources base active (.map entries) w) :
    ∃ fields properties', w = .map fields ∧ nameOf? fields = some name ∧
      IsRecord fields required properties' ∧
      properties'.map Prod.fst = properties.map Prod.fst := by
  have others : ∀ key ∈ IsRecord.keys,
      Entries.get? key (part ++ [(.str schemaNameKey, .str name)]) = Entries.get? key part := by
    intro key member
    have other : schemaNameKey ≠ key := fun same => absurd (same ▸ member) (by decide)
    rw [Entries.get?_append]
    simp [Entries.get?, other]
  have tag : Entries.get? schemaNameKey (part ++ [(.str schemaNameKey, .str name)]) =
      some (.str name) := by
    rw [Entries.get?_append, unnamed]
    rfl
  obtain ⟨active, -⟩ | ⟨-, inner, v, expands, same⟩ := expands.reference_cases plain found refers
  · exact absurd active inactive
  rw [tagged_of_unnamed plain unnamed] at expands
  obtain ⟨fields, properties', rfl, pointwise, isRecord, names⟩ :=
    expands.record (record.congr others) noReference fun fields same =>
      notMap fields ((others "required" (by decide)).symm.trans same)
  obtain ⟨_, named, ⟨⟩⟩ := pointwise.get?_left tag
  have goesBy : ∀ fields, Entries.get? schemaNameKey fields = some (.str name) →
      nameOf? fields = some name := by
    intro fields named
    rw [nameOf?, named]
    exact if_neg given
  obtain rfl | ⟨_, others, ⟨⟩, rfl, each⟩ := same
  · exact ⟨fields, properties', rfl, goesBy fields named, isRecord, names⟩
  · have kept : ∀ key ∈ schemaNameKey :: IsRecord.keys,
        Entries.get? key (Entries.putAll fields others) = Entries.get? key fields := by
      intro key member
      refine Entries.get?_putAll_of_none ?_ fields
      by_cases reference : key = "$ref"
      · rw [reference]
        exact get?_beside (Entries.pointwise_iff.mp each).1
      · refine each.get?_none ((get?_siblings reference entries).trans (beside key ?_))
        simp only [IsRecord.keys, List.mem_cons, reference, false_or] at member
        simpa [IsRecord.keys] using member
    refine ⟨_, properties', rfl, goesBy _ ((kept _ List.mem_cons_self).trans named),
      isRecord.congr fun key member => kept key (List.mem_cons_of_mem _ member), names⟩

end Resolver

/-- **A record among the component schemas** of a document is one in the document that is loaded,
with the same names. -/
theorem component_record {world : World} {origin : Origin} {document v : Value}
    {base folder : Option Files.Path} {name : String} {part : Entries} {required : List String}
    {properties : List (String × Value)} {api : Api} (plain : IsPlainName name)
    (other : name ≠ "$ref")
    (opened : Document.readOrigin world origin base = .ok (document, folder))
    (distinct : document.DistinctKeys)
    (found : Resolver.localPart? document (schemaReference name) = some (.map part))
    (record : Schema.IsRecord part required properties)
    (noReference : "$ref" ∉ properties.map Prod.fst)
    (notMap : ∀ fields, Entries.get? "required" part ≠ some (.map fields))
    (loaded : (Document.load world origin base).result = .ok v)
    (read : Api.ofDocument v = .ok api) :
    ∃ component properties', (.str name, .map component) ∈ api.schemas ∧
      Schema.IsRecord component required properties' ∧
      properties'.map Prod.fst = properties.map Prod.fst := by
  obtain ⟨s, resolved⟩ := load_eq_ok opened loaded
  obtain ⟨sources, -, expands⟩ := Resolver.resolve_eq_ok resolved
  rw [localPart?_schema plain] at found
  obtain ⟨_, found', expands⟩ := expands.follow distinct (by simpa using Ne.symm other) found
  obtain ⟨fields, properties', rfl, -, isRecord, names⟩ :=
    expands.record record noReference notMap
  exact ⟨fields, properties', Api.ofDocument_follow read found', isRecord, names⟩

end ClientForge
