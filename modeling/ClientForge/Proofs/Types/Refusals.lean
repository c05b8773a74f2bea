/-
# ClientForge.Proofs.Types.Refusals -- schemas of the right shape, and what is refused in them

`HasShape` says which value each key of a schema has to hold, as the specification of documents
types them.  Only the keys are named whose values reading looks into; all others may hold anything.
A schema of this shape is read, unless reading meets a reference that was left in place and stands
for no component schema: `MeetsForeign` has one rule for each place that reading leads to, and no
rule for those that it passes over (`read_refusedIff`).
-/
import ClientForge.Proofs.Types.Description

namespace ClientForge.Schema

set_option autoImplicit false

open Attempt (RefusedIff)

/-! ## Shapes -/

/-- The shapes of the values in a schema. -/
inductive Shape where
  | text
  | texts
  | textOrTexts
  | literal
  | literals
  | schema
  | schemas
  | properties
  | flagOrSchema
  deriving DecidableEq

/-- The shape of the value under a key. -/
def shapeOf? (key : String) : Option Shape :=
  if key ∈ ["$ref", "format"] then some .text
  else if key = "required" then some .texts
  else if key = "type" then some .textOrTexts
  else if key = "const" then some .literal
  else if key = "enum" then some .literals
  else if key = "items" then some .schema
  else if key ∈ ["oneOf", "anyOf", "allOf"] then some .schemas
  else if key = "properties" then some .properties
  else if key = "additionalProperties" then some .flagOrSchema
  else none

/-- A text, a number, a truth value or null. -/
def IsPrimitive : Scalar → Prop
  | .date _ | .moment _ => False
  | _ => True

/-- A value of JSON: keys are texts, and nothing in it is a date. -/
inductive IsJson : Value → Prop
  | atom {a : Scalar} : IsPrimitive a → IsJson (.atom a)
  | list {items : List Value} : (∀ item ∈ items, IsJson item) → IsJson (.list items)
  | object {fields : List (String × Value)} : (∀ field ∈ fields, IsJson field.2) →
      IsJson (.object fields)

/-- A value has a shape. -/
inductive HasShape : Shape → Value → Prop
  | text (s : String) : HasShape .text (.str s)
  | texts (names : List String) : HasShape .texts (.list (names.map .str))
  | oneText (s : String) : HasShape .textOrTexts (.str s)
  | allTexts (names : List String) : HasShape .textOrTexts (.list (names.map .str))
  | literal {v : Value} : IsJson v → HasShape .literal v
  | literals {items : List Value} : (∀ item ∈ items, IsJson item) →
      HasShape .literals (.list items)
  | schema {entries : Entries} :
      (∀ key shape v, shapeOf? key = some shape → Entries.get? key entries = some v →
        HasShape shape v) → HasShape .schema (.map entries)
  | schemas {items : List Value} : (∀ item ∈ items, HasShape .schema item) →
      HasShape .schemas (.list items)
  | properties {fields : List (String × Value)} : (∀ field ∈ fields, HasShape .schema field.2) →
      HasShape .properties (.object fields)
  | flag (b : Bool) : HasShape .flagOrSchema (.bool b)
  | further {v : Value} : HasShape .schema v → HasShape .flagOrSchema v

/-! ## References -/

/-- The names of types that a schema goes by. -/
def typesOf (entries : Entries) : List Value :=
  match Entries.get? "type" entries with
  | some (.list names) => names
  | type => [type.getD .null]

/-- Under this name of a type, the schema is that of an object. -/
def IsObjectName (entries : Entries) (name : Value) : Prop :=
  name = .str "object" ∨
    (∀ known ∈ typeNames, name ≠ .str known) ∧ Entries.has "properties" entries = true

theorem IsObjectName.ne_array {entries : Entries} {name : Value}
    (isObject : IsObjectName entries name) : name ≠ .str "array" := by
  rintro rfl
  obtain same | ⟨meansNothing, -⟩ := isObject
  · exact absurd same (by decide)
  · exact meansNothing "array" (by decide) rfl

/-- The name of a type without parts is that of neither an array nor an object. -/
theorem not_isObjectName_of_leaf {entries : Entries} {known : String}
    (leaf : known ∈ "string" :: primitiveNames.map Prod.fst) :
    Value.str known ≠ .str "array" ∧ ¬ IsObjectName entries (.str known) := by
  simp only [primitiveNames, List.map_cons, List.map_nil, List.mem_cons, List.not_mem_nil,
    or_false] at leaf
  rcases leaf with rfl | rfl | rfl | rfl | rfl <;> simp [IsObjectName, typeNames]

/-- Neither is a name that means nothing, where there are no properties. -/
theorem not_isObjectName_of_unknown {entries : Entries} {name : Value}
    (meansNothing : ∀ known ∈ typeNames, name ≠ .str known)
    (absent : Entries.has "properties" entries = false) :
    name ≠ .str "array" ∧ ¬ IsObjectName entries name := by
  refine ⟨meansNothing "array" (by decide), ?_⟩
  rintro (same | ⟨-, has⟩)
  · exact meansNothing "object" (by decide) same
  · rw [absent] at has
    cases has

/-- Reading the schema leads to a reference that was left in place and stands for no component
schema. -/
inductive MeetsForeign : Value → String → Prop
  | here {entries : Entries} {reference : String} :
      Entries.get? "$ref" entries = some (.str reference) → isSchemaReference reference = false →
      MeetsForeign (.map entries) reference
  | member {entries : Entries} {key : String} {c : Connective} {items : List Value} {item : Value}
      {reference : String} :
      (ruleFor false entries).joins? = some (key, c) →
      Entries.get? key entries = some (.list items) → item ∈ items →
      MeetsForeign item reference → MeetsForeign (.map entries) reference
  | item {entries : Entries} {v : Value} {reference : String} :
      ruleFor false entries = .type → .str "array" ∈ typesOf entries →
      Entries.get? "items" entries = some v → MeetsForeign v reference →
      MeetsForeign (.map entries) reference
  | property {entries properties : Entries} {entry : Scalar × Value} {name : Value}
      {reference : String} :
      ruleFor false entries = .type → name ∈ typesOf entries → IsObjectName entries name →
      Entries.get? "properties" entries = some (.map properties) → entry ∈ properties →
      MeetsForeign entry.2 reference → MeetsForeign (.map entries) reference
  | additional {entries : Entries} {name v : Value} {reference : String} :
      ruleFor false entries = .type → name ∈ typesOf entries → IsObjectName entries name →
      Entries.get? "additionalProperties" entries = some v → MeetsForeign v reference →
      MeetsForeign (.map entries) reference

/-- Reading the schema leads to some foreign reference. -/
def IsForeign (v : Value) : Prop := ∃ reference, MeetsForeign v reference

section Foreign

variable {entries : Entries}

theorem isForeign_reference (rule : ruleFor false entries = .reference) :
    IsForeign (.map entries) ↔ ∃ reference, Entries.get? "$ref" entries = some (.str reference) ∧
      isSchemaReference reference = false := by
  constructor
  · rintro ⟨reference, meets⟩
    cases meets with
    | here found other => exact ⟨reference, found, other⟩
    | member joins => rw [rule] at joins; cases joins
    | item rule' => rw [rule] at rule'; cases rule'
    | property rule' => rw [rule] at rule'; cases rule'
    | additional rule' => rw [rule] at rule'; cases rule'
  · rintro ⟨reference, found, other⟩
    exact ⟨reference, .here found other⟩

theorem has_of_get? {key : String} {v : Value} (found : Entries.get? key entries = some v) :
    Entries.has key entries = true := by
  rw [Entries.has, found]
  rfl

/-- Where no reference stands, another rule decides. -/
theorem ruleFor_of_reference {inlineNamed : Bool} {v : Value}
    (found : Entries.get? "$ref" entries = some v) : ruleFor inlineNamed entries = .reference := by
  rw [ruleFor, if_pos (has_of_get? found)]

theorem isForeign_joined {key : String} {c : Connective} {items : List Value}
    (joins : (ruleFor false entries).joins? = some (key, c))
    (found : Entries.get? key entries = some (.list items)) :
    IsForeign (.map entries) ↔ ∃ item ∈ items, IsForeign item := by
  constructor
  · rintro ⟨reference, meets⟩
    cases meets with
    | here refers => rw [ruleFor_of_reference refers] at joins; cases joins
    | member joins' found' among meets =>
        rw [joins] at joins'
        cases joins'
        rw [found] at found'
        cases found'
        exact ⟨_, among, reference, meets⟩
    | item rule => rw [rule] at joins; cases joins
    | property rule => rw [rule] at joins; cases joins
    | additional rule => rw [rule] at joins; cases joins
  · rintro ⟨item, among, reference, meets⟩
    exact ⟨reference, .member joins found among meets⟩

/-- A schema that is a literal or goes by a name leads nowhere. -/
theorem not_isForeign (noJoin : (ruleFor false entries).joins? = none)
    (noType : ruleFor false entries ≠ .type) (noReference : ruleFor false entries ≠ .reference) :
    ¬ IsForeign (.map entries) := by
  rintro ⟨reference, meets⟩
  cases meets with
  | here refers => exact noReference (ruleFor_of_reference refers)
  | member joins => rw [noJoin] at joins; cases joins
  | item rule => exact noType rule
  | property rule => exact noType rule
  | additional rule => exact noType rule

/-- The items of an array lead to a foreign reference. -/
def HasForeignItems (entries : Entries) : Prop :=
  ∃ v, Entries.get? "items" entries = some v ∧ IsForeign v

/-- A member of an object leads to a foreign reference. -/
def HasForeignMembers (entries : Entries) : Prop :=
  (∃ properties, Entries.get? "properties" entries = some (.map properties) ∧
    ∃ entry ∈ properties, IsForeign entry.2) ∨
  ∃ v, Entries.get? "additionalProperties" entries = some v ∧ IsForeign v

/-- A type name leads to a foreign reference. -/
def HasForeignType (entries : Entries) (name : Value) : Prop :=
  name = .str "array" ∧ HasForeignItems entries ∨
    IsObjectName entries name ∧ HasForeignMembers entries

theorem isForeign_type (rule : ruleFor false entries = .type) :
    IsForeign (.map entries) ↔ ∃ name ∈ typesOf entries, HasForeignType entries name := by
  constructor
  · rintro ⟨reference, meets⟩
    cases meets with
    | here refers => rw [ruleFor_of_reference refers] at rule; cases rule
    | member joins => rw [rule] at joins; cases joins
    | item _ among found meets => exact ⟨_, among, Or.inl ⟨rfl, _, found, reference, meets⟩⟩
    | property _ among isObject found inside meets =>
        exact ⟨_, among, Or.inr ⟨isObject, Or.inl ⟨_, found, _, inside, reference, meets⟩⟩⟩
    | additional _ among isObject found meets =>
        exact ⟨_, among, Or.inr ⟨isObject, Or.inr ⟨_, found, reference, meets⟩⟩⟩
  · rintro ⟨name, among, ⟨rfl, v, found, reference, meets⟩ | ⟨isObject, members⟩⟩
    · exact ⟨reference, .item rule among found meets⟩
    · obtain ⟨properties, found, entry, inside, reference, meets⟩ | ⟨v, found, reference, meets⟩ :=
        members
      · exact ⟨reference, .property rule among isObject found inside meets⟩
      · exact ⟨reference, .additional rule among isObject found meets⟩

end Foreign

/-! ## Parts of the reader -/

theorem ofReference_refusedIff (reference : String) :
    (ofReference (.str reference)).RefusedIff (isSchemaReference reference = false) := by
  show (if isSchemaReference reference = true then _ else _ : Attempt TypeExpr).RefusedIff _
  cases known : isSchemaReference reference with
  | true => exact (RefusedIff.ok _).congr (by simp)
  | false => exact (RefusedIff.reject _).congr (by simp)

theorem exists_printItems {items : List Value}
    (printed : ∀ item ∈ items, ∃ text, Json.print? item = some text) :
    ∃ parts, Json.printItems? items = some parts := by
  induction items with
  | nil => exact ⟨[], rfl⟩
  | cons item rest ih =>
      obtain ⟨⟨part, here⟩, later⟩ := List.forall_mem_cons.mp printed
      obtain ⟨parts, others⟩ := ih later
      exact ⟨part :: parts, by rw [Json.printItems?, here, others]; rfl⟩

theorem exists_printEntries {fields : List (String × Value)}
    (printed : ∀ field ∈ fields, ∃ text, Json.print? field.2 = some text) :
    ∃ parts, Json.printEntries? (fields.map fun field => (.str field.1, field.2)) =
      some parts := by
  induction fields with
  | nil => exact ⟨[], rfl⟩
  | cons field rest ih =>
      obtain ⟨⟨part, here⟩, later⟩ := List.forall_mem_cons.mp printed
      obtain ⟨parts, others⟩ := ih later
      exact ⟨_, by rw [List.map_cons, Json.printEntries?, here, others]; rfl⟩

/-- Whatever is JSON can be printed. -/
theorem IsJson.exists_print {v : Value} (json : IsJson v) : ∃ text, Json.print? v = some text := by
  induction json with
  | @atom a primitive =>
      rw [Json.print?]
      cases a <;> first | exact ⟨_, rfl⟩ | exact primitive.elim
  | list _ printed =>
      obtain ⟨parts, run⟩ := exists_printItems printed
      rw [Json.print?, run]
      exact ⟨_, rfl⟩
  | object _ printed =>
      obtain ⟨parts, run⟩ := exists_printEntries printed
      rw [Value.object, Json.print?, run]
      exact ⟨_, rfl⟩

theorem literal_eq_ok {v : Value} (json : IsJson v) :
    literals.literal v = .ok (.literal v) := by
  have spelled : (Literal.typeText? v).isSome = true := by
    obtain ⟨text, printed⟩ := json.exists_print
    unfold Literal.typeText?
    split
    · rfl
    · rw [printed]
      rfl
  rw [literals.literal, if_pos spelled]

theorem literals_eq_ok {items : List Value} (json : ∀ item ∈ items, IsJson item) :
    ∃ es, literals (.list items) = .ok es := by
  refine ⟨items.map fun item => .literal item, ?_⟩
  refine Attempt.mapM_of_forall₂ ?_
  rw [List.forall₂_map_right_iff, List.forall₂_same]
  exact fun item member => literal_eq_ok (json item member)

theorem requiredNames_eq_ok {v : Option Value} (shape : ∀ w, v = some w → HasShape .texts w) :
    ∃ names, requiredNames v = .ok names := by
  cases v with
  | none => exact ⟨[], rfl⟩
  | some w =>
      cases shape w rfl with
      | texts names =>
          refine ⟨_, if_pos ?_⟩
          simp [Value.scalar?]

theorem stringType_eq_ok (useDates : Bool) {format : Option Value}
    (shape : ∀ v, format = some v → HasShape .text v) :
    ∃ e, stringType useDates format = .ok e := by
  cases format with
  | none => exact ⟨_, rfl⟩
  | some v =>
      cases shape v rfl with
      | text s =>
          unfold stringType
          split
          · exact ⟨_, rfl⟩
          · split <;> exact ⟨_, rfl⟩
          · exact ⟨_, rfl⟩
          · rename_i noAtom same
            exact absurd (Option.some.inj same).symm (noAtom _)
          · exact ⟨_, rfl⟩

/-! ## Schemas -/

section Reading

variable {useDates : Bool} {entries : Entries}

/-- What a schema holds under its keys. -/
theorem HasShape.under {key : String} {shape : Shape} {v : Value}
    (shaped : HasShape .schema (.map entries)) (known : shapeOf? key = some shape)
    (found : Entries.get? key entries = some v) : HasShape shape v := by
  cases shaped with
  | schema each => exact each key shape v known found

/-- A schema has the right shape if each of its fields has the shape of its key. -/
theorem hasShape_object {fields : List (String × Value)}
    (each : ∀ field ∈ fields, ∀ shape, shapeOf? field.1 = some shape → HasShape shape field.2) :
    HasShape .schema (.object fields) := by
  refine .schema fun key shape v known found => ?_
  obtain ⟨field, member, same⟩ := List.mem_map.mp (Entries.mem_of_get? found)
  cases same
  exact each field member shape known

/-- The schemas that stand in a schema are read. -/
def RefusesChildren (useDates : Bool) (entries : Entries) : Prop :=
  ∀ v, Child entries v → HasShape .schema v → (read useDates false v).RefusedIff (IsForeign v)

theorem not_isForeign_flag (b : Bool) : ¬ IsForeign (.bool b) := by
  rintro ⟨reference, meets⟩
  cases meets

theorem readAt_refusedIff {key : String} (schemaKey : key ∈ ["items", "additionalProperties"])
    (shaped : ∀ v, Entries.get? key entries = some v → HasShape .schema v)
    (children : RefusesChildren useDates entries) :
    (readAt useDates key entries).RefusedIff
      (∃ v, Entries.get? key entries = some v ∧ IsForeign v) := by
  rw [readAt_eq]
  cases found : Entries.get? key entries with
  | none => exact (RefusedIff.ok _).congr (by simp)
  | some v => exact (children v (.under schemaKey found) (shaped v found)).congr (by simp)

theorem readMembersAt_refusedIff {rule : Rule} {key : String} {c : Connective} {items : List Value}
    (joins : rule.joins? = some (key, c)) (found : Entries.get? key entries = some (.list items))
    (shaped : ∀ item ∈ items, HasShape .schema item) (children : RefusesChildren useDates entries) :
    (readMembersAt useDates key entries).RefusedIff (∃ item ∈ items, IsForeign item) := by
  rw [readMembersAt_eq, found]
  show (readItems useDates items).RefusedIff _
  rw [readItems_eq]
  exact .mapM fun item member => children item (.item joins found rfl member) (shaped item member)

theorem readProperties_refusedIff (required : List String) {fields : List (String × Value)}
    (each : ∀ field ∈ fields, (read useDates false field.2).RefusedIff (IsForeign field.2)) :
    (readProperties useDates required
      (fields.map fun field => (.str field.1, field.2))).RefusedIff
        (∃ field ∈ fields, IsForeign field.2) := by
  induction fields with
  | nil => exact (RefusedIff.ok _).congr (by simp)
  | cons field rest ih =>
      obtain ⟨here, later⟩ := List.forall_mem_cons.mp each
      rw [List.map_cons, readProperties]
      exact (here.bind fun e _ => (ih later).bind fun members _ => .ok _).congr (by simp)

theorem declaredMembers_refusedIff (shaped : HasShape .schema (.map entries))
    (children : RefusesChildren useDates entries) :
    (declaredMembers entries fun required =>
      readPropertiesAt useDates required entries).RefusedIff
        (∃ properties, Entries.get? "properties" entries = some (.map properties) ∧
          ∃ entry ∈ properties, IsForeign entry.2) := by
  unfold declaredMembers
  cases found : Entries.get? "properties" entries with
  | none =>
      rw [if_neg (by simp [Entries.given, found])]
      exact (RefusedIff.ok _).congr (by simp)
  | some v =>
      cases shaped.under (by decide : shapeOf? "properties" = some .properties) found with
      | @properties fields each =>
          have foreign : (∃ properties, some (Value.object fields) = some (.map properties) ∧
              ∃ entry ∈ properties, IsForeign entry.2) ↔ ∃ field ∈ fields, IsForeign field.2 := by
            simp only [Value.object, Option.some.injEq, Value.map.injEq, exists_eq_left']
            constructor
            · rintro ⟨entry, member, foreign⟩
              obtain ⟨field, among, rfl⟩ := List.mem_map.mp member
              exact ⟨field, among, foreign⟩
            · rintro ⟨field, among, foreign⟩
              exact ⟨_, List.mem_map_of_mem among, foreign⟩
          refine RefusedIff.congr ?_ foreign.symm
          split
          · obtain ⟨required, names⟩ := requiredNames_eq_ok fun w here =>
              shaped.under (by decide : shapeOf? "required" = some .texts) here
            rw [names]
            show (readPropertiesAt useDates required entries).RefusedIff _
            rw [readPropertiesAt_eq, found]
            refine readProperties_refusedIff required fun field member => ?_
            have among : (Scalar.str field.1, field.2) ∈
                fields.map fun field => (Scalar.str field.1, field.2) :=
              List.mem_map_of_mem (f := fun field : String × Value =>
                (Scalar.str field.1, field.2)) member
            exact children field.2 (.property found among) (each field member)
          · rename_i empty
            have none : fields = [] := by
              simpa [Entries.given, found, Value.object, Value.truthy] using empty
            subst none
            exact (RefusedIff.ok _).congr (by simp)

theorem otherMembers_refusedIff (shaped : HasShape .schema (.map entries))
    (children : RefusesChildren useDates entries) :
    (otherMembers entries (readAt useDates "additionalProperties" entries)).RefusedIff
      (∃ v, Entries.get? "additionalProperties" entries = some v ∧ IsForeign v) := by
  have nowhere : ∀ {v : Value}, (∀ entry rest, v ≠ .map (entry :: rest)) → ¬ IsForeign v := by
    rintro v noMap ⟨reference, meets⟩
    have filled : ∀ {entries : Entries} {key : String} {w : Value},
        Entries.get? key entries = some w → v ≠ .map entries := by
      rintro entries key w found same
      cases entries with
      | nil => cases found
      | cons entry rest => exact noMap entry rest same
    cases meets with
    | here found => exact filled found rfl
    | member _ found => exact filled found rfl
    | item _ _ found => exact filled found rfl
    | property _ _ _ found => exact filled found rfl
    | additional _ _ _ found => exact filled found rfl
  unfold otherMembers
  split
  · rename_i entry rest found
    refine RefusedIff.map (readAt_refusedIff (by decide) (fun v here => ?_) children)
    rw [found] at here
    cases here
    cases shaped.under (by decide : shapeOf? "additionalProperties" = some .flagOrSchema) found with
    | further inner => exact inner
  · rename_i found
    exact (RefusedIff.ok _).congr (by simp [found, not_isForeign_flag])
  · rename_i noMap _
    refine (RefusedIff.ok _).congr (iff_of_false not_false ?_)
    rintro ⟨v, found, foreign⟩
    refine nowhere (fun entry rest same => ?_) foreign
    exact noMap entry rest (same ▸ found)

theorem typeNamed_refusedIff (shaped : HasShape .schema (.map entries))
    (children : RefusesChildren useDates entries) {name : Value}
    (isName : name = .null ∨ ∃ s, name = .str s) :
    (typeNamed useDates entries ((readAt useDates "items" entries).map .array)
      (objectType entries (fun required => readPropertiesAt useDates required entries)
        (readAt useDates "additionalProperties" entries)) name).RefusedIff
      (HasForeignType entries name) := by
  have array : Attempt.RefusedIff (HasForeignItems entries)
      ((readAt useDates "items" entries).map TypeExpr.array) := by
    refine (readAt_refusedIff (List.mem_cons_self) (fun v found => ?_) children).map
    exact shaped.under (by decide : shapeOf? "items" = some .schema) found
  have object : Attempt.RefusedIff (HasForeignMembers entries)
      (objectType entries (fun required => readPropertiesAt useDates required entries)
        (readAt useDates "additionalProperties" entries)) := by
    rw [objectType_eq]
    refine ((declaredMembers_refusedIff shaped children).bind fun members _ =>
      (otherMembers_refusedIff shaped children).bind fun others _ => .ok _).congr ?_
    rw [or_false, HasForeignMembers]
  have accepted {name : Value} (e : TypeExpr)
      (apart : name ≠ .str "array" ∧ ¬ IsObjectName entries name) :
      Attempt.RefusedIff (HasForeignType entries name) (.ok e) :=
    (RefusedIff.ok e).congr (by simp [HasForeignType, apart.1, apart.2])
  generalize (readAt useDates "items" entries).map TypeExpr.array = x at array ⊢
  generalize objectType entries (fun required => readPropertiesAt useDates required entries)
    (readAt useDates "additionalProperties" entries) = y at object ⊢
  generalize run : typeNamed useDates entries x y name = z
  cases readUnder_of_typeNamed run with
  | string =>
      obtain ⟨e, read⟩ := stringType_eq_ok useDates fun v found =>
        shaped.under (by decide : shapeOf? "format" = some .text) found
      rw [read]
      exact accepted e (not_isObjectName_of_leaf List.mem_cons_self)
  | primitive scalar =>
      exact accepted _ (not_isObjectName_of_leaf
        (List.mem_cons_of_mem _ (List.mem_map_of_mem scalar)))
  | array => exact array.congr (by simp [HasForeignType, IsObjectName, typeNames])
  | object isObject =>
      have isObject : IsObjectName entries name := isObject
      exact object.congr (by simp [HasForeignType, isObject, isObject.ne_array])
  | unknown meansNothing absent =>
      exact accepted _ (not_isObjectName_of_unknown meansNothing absent)
  | compound noAtom =>
      obtain rfl | ⟨s, rfl⟩ := isName
      · exact absurd rfl (noAtom _)
      · exact absurd rfl (noAtom _)

/-- The names of types are texts, or one of them is missing. -/
theorem typesOf_text (shaped : HasShape .schema (.map entries)) :
    ∀ name ∈ typesOf entries, name = .null ∨ ∃ s, name = .str s := by
  unfold typesOf
  cases found : Entries.get? "type" entries with
  | none => simp
  | some v =>
      cases shaped.under (by decide : shapeOf? "type" = some .textOrTexts) found with
      | oneText s => simp
      | allTexts names =>
          intro name member
          obtain ⟨s, -, rfl⟩ := List.mem_map.mp member
          exact Or.inr ⟨s, rfl⟩

/-- A list of type names is a choice between them; otherwise there is one name. -/
theorem readBy_type (useDates : Bool) (entries : Entries) :
    let named := typeNamed useDates entries ((readAt useDates "items" entries).map .array)
      (objectType entries (fun required => readPropertiesAt useDates required entries)
        (readAt useDates "additionalProperties" entries))
    readBy useDates entries .type = ((typesOf entries).mapM named).map .choice ∨
      ∃ name, typesOf entries = [name] ∧ readBy useDates entries .type = named name := by
  unfold readBy typesOf
  cases Entries.get? "type" entries with
  | none => exact Or.inr ⟨.null, rfl, rfl⟩
  | some v =>
      cases v with
      | list names => exact Or.inl rfl
      | atom a => exact Or.inr ⟨.atom a, rfl, rfl⟩
      | map fields => exact Or.inr ⟨.map fields, rfl, rfl⟩

theorem readBy_refusedIff (shaped : HasShape .schema (.map entries))
    (children : RefusesChildren useDates entries) :
    (readBy useDates entries (ruleFor false entries)).RefusedIff (IsForeign (.map entries)) := by
  have joined : ∀ {rule : Rule} {key : String} {c : Connective} {f : List TypeExpr → TypeExpr},
      rule.joins? = some (key, c) → shapeOf? key = some .schemas → ruleFor false entries = rule →
      Entries.given key entries = true →
      Attempt.RefusedIff (IsForeign (.map entries))
        ((readMembersAt useDates key entries).map f) := by
    intro rule key c f joins known decides given
    obtain ⟨v, found⟩ := exists_of_given given
    cases shaped.under known found with
    | schemas each =>
        rw [isForeign_joined (decides ▸ joins) found]
        exact (readMembersAt_refusedIff joins found each children).map
  have leaf : ∀ {rule : Rule} (e : TypeExpr), ruleFor false entries = rule →
      rule.joins? = none → rule ≠ .type → rule ≠ .reference →
      Attempt.RefusedIff (IsForeign (.map entries)) (.ok e) := by
    intro rule e decides noJoin noType noReference
    subst decides
    exact (RefusedIff.ok e).congr
      (iff_of_false not_false (not_isForeign noJoin noType noReference))
  have applies := ruleFor_applies (rfl : ruleFor false entries = _)
  cases decides : ruleFor false entries with
  | reference =>
      rw [decides] at applies
      obtain ⟨v, found⟩ := Option.isSome_iff_exists.mp applies
      cases shaped.under (by decide : shapeOf? "$ref" = some .text) found with
      | text reference =>
          rw [isForeign_reference decides, readBy, found]
          exact (ofReference_refusedIff reference).congr (by simp)
  | name => exact leaf _ decides rfl (by decide) (by decide)
  | oneOf =>
      rw [decides] at applies
      exact joined rfl (by decide) decides applies
  | anyOf =>
      rw [decides] at applies
      exact joined rfl (by decide) decides applies
  | allOf =>
      rw [decides] at applies
      exact joined rfl (by decide) decides applies
  | enum =>
      rw [decides] at applies
      obtain ⟨v, found⟩ := exists_of_given applies
      cases shaped.under (by decide : shapeOf? "enum" = some .literals) found with
      | literals each =>
          obtain ⟨es, run⟩ := literals_eq_ok each
          rw [readBy, found, Option.getD_some, run]
          exact leaf (.choice es) decides rfl (by decide) (by decide)
  | const =>
      rw [decides] at applies
      obtain ⟨v, found⟩ := Option.isSome_iff_exists.mp applies
      cases shaped.under (by decide : shapeOf? "const" = some .literal) found with
      | literal json =>
          rw [readBy, found, Option.getD_some, literal_eq_ok json]
          exact leaf _ decides rfl (by decide) (by decide)
  | type =>
      have text := typesOf_text shaped
      rw [isForeign_type decides]
      rcases readBy_type useDates entries with run | ⟨name, only, run⟩
      · rw [run]
        exact (RefusedIff.mapM fun name member =>
          typeNamed_refusedIff shaped children (text name member)).map
      · rw [run, only]
        rw [only] at text
        refine (typeNamed_refusedIff shaped children (text name List.mem_cons_self)).congr ?_
        simp

/-- **A schema of the right shape has a type, unless reading meets a foreign reference.** -/
theorem read_refusedIff (useDates : Bool) (v : Value) (shaped : HasShape .schema v) :
    (read useDates false v).RefusedIff (IsForeign v) := by
  induction v using children_induction with
  | atom a => cases shaped
  | list items => cases shaped
  | map entries ih =>
      by_cases empty : entries = []
      · subst empty
        refine (RefusedIff.ok _).congr (iff_of_false not_false ?_)
        rintro ⟨reference, meets⟩
        cases meets <;> contradiction
      · rw [read_map_eq useDates false empty]
        exact (readBy_refusedIff shaped ih).map

end Reading

end ClientForge.Schema
