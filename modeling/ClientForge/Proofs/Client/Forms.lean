/-
# ClientForge.Proofs.Client.Forms -- a form sends the members of its body

Which properties of a body may be missing is read from its schema twice: for its type, and for the
form that it is sent as.  The statements of a form are compared with the members of the type one by
one (`SendsMembers`): there is one statement for each, in order, which reads the property as the
type spells it and appends it under its own name, and it stands under a condition exactly if the
member may be missing.  The type is what the contract declares for the body, or the model of the
component that the body is (`request_sendsBody`); both have the members of a record
(`Schema.keysOf`), so only the form is left to look at.

A property whose schema lists several types has a member and no field: there is no request function
then (`request_refuses_types`).  And a reference keeps the name of its component when the keys next
to it require other properties (`request_overlooks_model`).
-/
import ClientForge.Proofs.Client.Scopes
import ClientForge.Proofs.Models.Records

namespace ClientForge

set_option autoImplicit false

open Schema (IsRecord keysOf)

/-! ## Conversions -/

namespace Schema

def isArray (entries : Entries) : Bool :=
  match Entries.get? "type" entries with
  | some (.atom (.str name)) => name == "array"
  | _ => false

/-- The schema names one type at most, and lists none. -/
def NamesOneType (entries : Entries) : Prop :=
  ∀ v, Entries.get? "type" entries = some v → ∃ a, v = .atom a

/-- A form can hold what a schema describes: one type, which may be an array of one type. -/
def FitsForm (entries : Entries) : Prop :=
  NamesOneType entries ∧ ∀ items, isArray entries = true →
    Entries.get? "items" entries = some (.map items) → NamesOneType items

/-- How the value of a property, or each of its items, becomes a text. -/
def conversionOf (entries : Entries) : Attempt Conversion :=
  if isArray entries then
    match Entries.get? "items" entries with
    | some (.map items) => FormBody.conversionFor items
    | _ => .ok .textOrJson
  else FormBody.conversionFor entries

theorem exists_conversionFor_iff (entries : Entries) :
    (∃ conversion, FormBody.conversionFor entries = .ok conversion) ↔ NamesOneType entries := by
  unfold FormBody.conversionFor NamesOneType
  cases Entries.get? "type" entries with
  | none => simp
  | some v =>
      cases v with
      | atom a =>
          refine iff_of_true ?_ (by simp)
          cases a with
          | str name =>
              dsimp only
              split_ifs <;> exact ⟨_, rfl⟩
          | _ => exact ⟨_, rfl⟩
      | list _ => exact iff_of_false nofun fun one => by cases (one _ rfl).choose_spec
      | map _ => exact iff_of_false nofun fun one => by cases (one _ rfl).choose_spec

theorem isArray_iff (entries : Entries) :
    isArray entries = true ↔ Entries.get? "type" entries = some (.str "array") := by
  unfold isArray
  split <;> simp_all

theorem exists_conversionOf_iff (entries : Entries) :
    (∃ conversion, conversionOf entries = .ok conversion) ↔ FitsForm entries := by
  unfold conversionOf FitsForm
  cases array : isArray entries with
  | false => simpa using exists_conversionFor_iff entries
  | true =>
      have one : NamesOneType entries := by
        intro v found
        rw [(isArray_iff entries).mp array] at found
        cases found
        exact ⟨_, rfl⟩
      rw [if_pos rfl, and_iff_right one]
      split
      · rename_i items found
        rw [exists_conversionFor_iff]
        exact ⟨fun named _ _ same => by cases found.symm.trans same; exact named,
          fun each => each items rfl found⟩
      · rename_i noItems
        exact iff_of_true ⟨_, rfl⟩ fun items _ found => absurd found (noItems items)

end Schema

open Schema (isArray FitsForm conversionOf)

theorem FormBody.fieldOf_eq (required : List String) (name : String) (fields : Entries) :
    fieldOf required (.str name) (.map fields) = (conversionOf fields).map fun conversion =>
      ⟨name, required.contains name, isArray fields, conversion⟩ := by
  unfold fieldOf conversionOf
  simp only [Contract.textOf, Api.asMap, bind, Except.bind]
  split
  · rename_i found
    have array := (Schema.isArray_iff fields).mpr found
    rw [if_pos array, array]
    rcases Entries.get? "items" fields with _ | (_ | _ | items)
    · rfl
    · rfl
    · rfl
    · dsimp only
      cases conversionFor items <;> rfl
  · rename_i other
    have single : isArray fields = false :=
      Bool.eq_false_iff.mpr fun array => other ((Schema.isArray_iff fields).mp array)
    rw [single]
    cases conversionFor fields <;> rfl

/-! ## Statements -/

/-- The expression for a member of a value, as the key of the member spells it. -/
def memberOf (source name : String) : String :=
  let key := Naming.propertyKey name
  if key = name then source ++ "." ++ key else source ++ "[" ++ key ++ "]"

theorem FormField.accessor_eq_memberOf (source : String) (f : FormField) :
    f.accessor source = memberOf source f.name := by
  unfold accessor memberOf
  dsimp only
  split
  · rename_i plain
    rw [plain]
  · rename_i quoted
    have key : Naming.propertyKey f.name = "'" ++ f.name ++ "'" := by
      unfold Naming.propertyKey at quoted ⊢
      split
      · rename_i identifier
        rw [if_pos identifier] at quoted
        exact absurd rfl quoted
      · rfl
    rw [key]
    simp only [String.append_assoc]
    rfl

/-- The string that a value is appended under. -/
def FormField.label (name : String) : String := "'" ++ name ++ "'"

theorem FormField.string?_label_iff (name : String) :
    Script.string? (label name).toList = some name ↔ Text.Raw name := by
  have chars : (label name).toList = '\'' :: (name.toList ++ ['\'']) := by
    simp [label, String.toList_append]
  rw [chars]
  exact Script.string?_raw_iff (by decide) name

/-- The call that appends a value to a form. -/
def FormKind.appendCall (kind : FormKind) (name value : String) : String :=
  kind.name ++ ".append(" ++ FormField.label name ++ ", " ++ value ++ ")"

/-- The statement appends a property of a value, or each of its items if it is an array. -/
inductive Appends (kind : FormKind) (source name : String) (fields : Entries) : String → Prop
  | value {conversion : Conversion} : isArray fields = false →
      conversionOf fields = .ok conversion →
      Appends kind source name fields
        (kind.appendCall name (conversion.apply (memberOf source name)) ++ ";")
  | items {conversion : Conversion} : isArray fields = true →
      conversionOf fields = .ok conversion →
      Appends kind source name fields
        (memberOf source name ++ ".forEach(value => " ++
          kind.appendCall name (conversion.apply "value") ++ ");")

/-- The lines send the member with this key: one statement that appends its property, under the
condition that it is there if the member may be missing. -/
inductive SendsMember (kind : FormKind) (source : String) :
    String × Entries → MemberKey → List String → Prop
  | always {name statement : String} {fields : Entries} :
      Appends kind source name fields statement →
      SendsMember kind source (name, fields) (.property name false) ["  " ++ statement]
  | ifThere {name statement : String} {fields : Entries} :
      Appends kind source name fields statement →
      SendsMember kind source (name, fields) (.property name true)
        ["  if (" ++ memberOf source name ++ " !== undefined) \x7b", "    " ++ statement, "  \x7d"]

/-- The lines send the members with these keys, one behind the other. -/
inductive SendsMembers (kind : FormKind) (source : String) :
    List (String × Entries) → List MemberKey → List String → Prop
  | nil : SendsMembers kind source [] [] []
  | cons {property : String × Entries} {key : MemberKey} {lines more : List String}
      {properties : List (String × Entries)} {keys : List MemberKey} :
      SendsMember kind source property key lines → SendsMembers kind source properties keys more →
      SendsMembers kind source (property :: properties) (key :: keys) (lines ++ more)

/-- The statements of a request function, up to the call: a form is made, and the members with
these keys are sent. -/
def RequestFunction.SendsBody (f : RequestFunction) (kind : FormKind) (source : String)
    (properties : List (String × Entries)) (keys : List MemberKey) : Prop :=
  ∃ lines, f.bodyLines = ("  const " ++ kind.name ++ " = new " ++ kind.constructor ++ "();") ::
      lines ++ ["  return " ++ f.call.render ++ ";"] ∧
    SendsMembers kind source properties keys lines

namespace FormField

variable {kind : FormKind} {source : String} {f : FormField} {fields : Entries}

theorem append_appends (array : f.perItem = isArray fields)
    (known : conversionOf fields = .ok f.conversion) :
    Appends kind source f.name fields (f.append kind source) := by
  unfold append
  rw [f.accessor_eq_memberOf]
  dsimp only
  split
  · rename_i perItem
    have statement : Appends kind source f.name fields _ := .items (array ▸ perItem) known
    simp only [FormKind.appendCall, label, String.append_assoc] at statement ⊢
    exact statement
  · rename_i single
    have statement : Appends kind source f.name fields _ :=
      .value (array ▸ Bool.eq_false_iff.mpr single) known
    simp only [FormKind.appendCall, label, String.append_assoc] at statement ⊢
    exact statement

theorem lines_sendMember (array : f.perItem = isArray fields)
    (known : conversionOf fields = .ok f.conversion) :
    SendsMember kind source (f.name, fields) (.property f.name (!f.required))
      (f.lines kind source) := by
  have statement : Appends kind source f.name fields (f.append kind source) :=
    append_appends array known
  unfold lines
  split
  · rename_i required
    rw [required]
    exact .always statement
  · rename_i optional
    rw [Bool.eq_false_iff.mpr optional, f.accessor_eq_memberOf]
    exact .ifThere statement

end FormField

/-! ## Forms -/

namespace FormBody

variable {kind : FormKind} {source : String} {entries : Entries} {required : List String}
  {properties : List (String × Entries)}

/-- The properties of a schema as values. -/
abbrev values (properties : List (String × Entries)) : List (String × Value) :=
  properties.map fun p => (p.1, .map p.2)

/-- The form for a record has a field for each property. -/
theorem ofSchema_record (record : IsRecord entries required (values properties)) :
    ofSchema kind source (some (.map entries)) =
      (properties.mapM fun p => fieldOf required (.str p.1) (.map p.2)).map fun fields =>
        ⟨kind, source, some fields⟩ := by
  have truthy : (Value.map entries).truthy = true := by
    cases entries with
    | nil => exact absurd rfl record.filled
    | cons _ _ => rfl
  have shape : Value.object (values properties) =
      .map (properties.map fun p => (.str p.1, .map p.2)) := by
    rw [Value.object, List.map_map]
    rfl
  unfold ofSchema
  simp only [Option.getD_some, truthy, if_true, Api.asMap, bind, Except.bind, record.given,
    Bool.not_true, Bool.false_eq_true, if_false, record.requires, record.declares, shape,
    List.mapM_map, Function.comp_def]
  cases properties.mapM fun p => fieldOf required (.str p.1) (.map p.2) <;> rfl

theorem exists_field_iff (required : List String) (p : String × Entries) :
    (∃ f, fieldOf required (.str p.1) (.map p.2) = .ok f) ↔ FitsForm p.2 := by
  rw [fieldOf_eq, ← Schema.exists_conversionOf_iff]
  constructor
  · rintro ⟨f, run⟩
    obtain ⟨conversion, known, -⟩ := Attempt.map_eq_ok run
    exact ⟨conversion, known⟩
  · rintro ⟨conversion, known⟩
    rw [known]
    exact ⟨_, rfl⟩

/-- There is a form for a record if it can hold every property. -/
theorem exists_form_iff (record : IsRecord entries required (values properties)) :
    (∃ form, ofSchema kind source (some (.map entries)) = .ok form) ↔
      ∀ p ∈ properties, FitsForm p.2 := by
  rw [ofSchema_record record]
  constructor
  · rintro ⟨form, run⟩ p member
    obtain ⟨fields, run, -⟩ := Attempt.map_eq_ok run
    have made := Attempt.mapM_eq_ok run
    obtain ⟨f, zipped⟩ := exists_mem_zip made.length_eq member
    exact (exists_field_iff required p).mp ⟨f, List.forall₂_zip made zipped⟩
  · intro fits
    obtain ⟨fields, made⟩ :=
      exists_forall₂ fun p member => (exists_field_iff required p).mpr (fits p member)
    rw [Attempt.mapM_of_forall₂ made]
    exact ⟨_, rfl⟩

/-- The fields for the properties of a record send its members. -/
theorem fields_sendMembers {fields : List FormField}
    (made : List.Forall₂ (fun p f => fieldOf required (.str p.1) (.map p.2) = .ok f)
      properties fields) :
    SendsMembers kind source properties (keysOf required (properties.map Prod.fst))
      (fields.flatMap (FormField.lines kind source)) := by
  induction made with
  | nil => exact .nil
  | @cons p f rest others first _ ih =>
      rw [fieldOf_eq] at first
      obtain ⟨conversion, known, rfl⟩ := Attempt.map_eq_ok first
      refine .cons ?_ ih
      exact FormField.lines_sendMember (f := ⟨p.1, required.contains p.1, isArray p.2, conversion⟩)
        rfl known

end FormBody

/-! ## Contracts -/

/-- The type of an object is no name. -/
theorem render_ne_pascal (entries : Entries) (members : List (MemberKey × TypeExpr))
    (name : String) :
    (Schema.withNull entries (.object members)).render ≠ Naming.pascal name := by
  have object : ∃ rest, (TypeExpr.object members).render = "\x7b " ++ rest := by
    rw [TypeExpr.render, TypeExpr.objectText]
    split
    · exact ⟨"\x7d", rfl⟩
    · exact ⟨_, String.append_assoc⟩
  have opens : ∃ rest, (Schema.withNull entries (.object members)).render = "\x7b " ++ rest := by
    obtain ⟨rest, text⟩ := object
    unfold Schema.withNull
    split
    · rw [TypeExpr.render, TypeExpr.nullableText, text]
      split
      · exact ⟨rest, rfl⟩
      · exact ⟨rest ++ " | null", String.append_assoc⟩
    · exact ⟨rest, text⟩
  obtain ⟨rest, text⟩ := opens
  intro same
  have brace : '\x7b' ∈ (Naming.pascal name).toList := by
    rw [← same, text]
    simp
  rw [Naming.pascal, String.toList_ofList] at brace
  exact absurd (Naming.pascal_isNameChar _ brace) (by decide)

/-- The type of a body is that of its schema. -/
theorem Body.normalize_type {o : Override} {request : Option RequestBody} {body : Body}
    {schema : Value} (run : normalize o request = .ok body) (found : body.schema = some schema) :
    Schema.resolve o.useDates schema false = .ok body.type := by
  unfold normalize at run
  split at run
  · cases run
    cases found
  · split at run
    · cases run
      cases found
    · rename_i media rest content
      obtain ⟨type, read, run⟩ := Attempt.bind_eq_ok run
      obtain ⟨isFormData, run⟩ := Attempt.choice_eq_ok run
      obtain ⟨isFormUrlEncoded, run⟩ := Attempt.choice_eq_ok run
      cases run
      have found : media.schema = some schema := found
      rw [found] at read
      exact read

namespace Contract

/-- A contract declares the type of its body: the slot of the body has this name, and the type that
the declaration defines. -/
def DeclaresBody (c : Contract) (source : String) (type : TypeExpr) : Prop :=
  ∃ d ∈ c.declarations, d.definition = type.render ∧
    ∃ slot ∈ c.surface.slots, slot.role = .body ∧ slot.name = source ∧ slot.type = d.name

section Body

variable {op : Operation} {o : Override} {c : Contract} {path query header : List Slot}
  {queryTypes headerTypes : List Declaration} {profile : Profile} {kind : FormKind}

/-- The slot of a body. -/
theorem Assembled.exists_bodySlot
    (built : c.Assembled op o path query header queryTypes headerTypes)
    (given : c.body.defined = true) : ∃ slot ∈ c.surface.slots, slot.role = .body ∧
      c.slotName? .body = some slot.name ∧ c.bodyTypeName = some slot.type := by
  have part : ∃ slot, (bodyPart c.name o c.body).2.1 = [slot] ∧ slot.role = .body ∧
      (bodyPart c.name o c.body).2.2 = some slot.type := by
    unfold bodyPart
    rw [given]
    exact ⟨_, rfl, rfl, rfl⟩
  obtain ⟨slot, only, role, type⟩ := part
  have member : slot ∈ c.surface.slots := by
    rw [built.slots, only]
    simp
  have named := built.slotName?_eq member (by rw [role]; decide)
  rw [role] at named
  exact ⟨slot, member, role, named, built.bodyTypeName.trans type⟩

/-- The declaration of a body that is no model. -/
theorem Assembled.declaresBody
    (built : c.Assembled op o path query header queryTypes headerTypes)
    (given : c.body.defined = true) {type : TypeExpr} (same : c.body.type = type.resolved)
    (inline : c.hasModelBody = false) {source : String}
    (named : c.slotName? .body = some source) : c.DeclaresBody source type := by
  obtain ⟨slot, member, role, slotName, typeName⟩ := built.exists_bodySlot given
  refine ⟨⟨Naming.pascal c.name ++ "Body", type.render, type.imports⟩, ?_, rfl, slot, member, role,
    Option.some.inj (slotName.symm.trans named), built.bodyTypeName_eq typeName inline⟩
  have part : (bodyPart c.name o c.body).1 =
      [⟨Naming.pascal c.name ++ "Body", type.render, type.imports⟩] := by
    unfold hasModelBody at inline
    unfold bodyPart
    simp only [given, inline]
    rw [same]
    rfl
  rw [built.declarations, part]
  exact List.mem_append_right _ (List.mem_singleton_self _)

theorem form?_eq {source : String} (named : c.slotName? .body = some source)
    (isForm : FormBody.kind? c.body = some kind) :
    c.form? = (FormBody.ofSchema kind source c.body.schema).map some := by
  rw [form?, named, isForm]

/-- A body that is sent as a form needs a form and nothing else. -/
theorem exists_request_iff {source : String} (named : c.slotName? .body = some source)
    (isForm : FormBody.kind? c.body = some kind) :
    (∃ f, c.request profile = .ok f) ↔
      ∃ form, FormBody.ofSchema kind source c.body.schema = .ok form := by
  constructor
  · rintro ⟨f, run⟩
    have form := request_form run
    rw [form?_eq named isForm] at form
    obtain ⟨made, run, -⟩ := Attempt.map_eq_ok form
    exact ⟨made, run⟩
  · rintro ⟨form, made⟩
    have contentType : ∃ name, c.contentType? = .ok name := by
      unfold FormBody.kind? at isForm
      unfold contentType?
      split
      · exact ⟨_, rfl⟩
      split
      · exact ⟨_, rfl⟩
      split
      · exact ⟨_, rfl⟩
      · simp_all
    obtain ⟨name, contentType⟩ := contentType
    unfold request
    rw [form?_eq named isForm, made]
    cases c.mutator with
    | none => exact ⟨_, rfl⟩
    | some m =>
        unfold mutatorCall
        rw [contentType]
        exact ⟨_, rfl⟩

/-- The form for a record sends its members. -/
theorem request_sendsKeys {source : String} {entries : Entries} {required : List String}
    {properties : List (String × Entries)} {f : RequestFunction}
    (named : c.slotName? .body = some source) (isForm : FormBody.kind? c.body = some kind)
    (schema : c.body.schema = some (.map entries))
    (record : IsRecord entries required (FormBody.values properties))
    (run : c.request profile = .ok f) :
    f.SendsBody kind source properties (keysOf required (properties.map Prod.fst)) := by
  have form := request_form run
  rw [form?_eq named isForm, schema, FormBody.ofSchema_record record] at form
  obtain ⟨made, fields, same⟩ := Attempt.map_eq_ok form
  obtain ⟨fields, run, rfl⟩ := Attempt.map_eq_ok fields
  refine ⟨_, ?_, FormBody.fields_sendMembers (Attempt.mapM_eq_ok run)⟩
  unfold RequestFunction.bodyLines
  rw [← same]
  rfl

end Body

end Contract

/-- The models module declares a type under a name. -/
def ModelsFile.DeclaresAs (file : ModelsFile) (name : String) (type : TypeExpr) : Prop :=
  ∃ model ∈ file.models, model.name = name ∧ model.type? = some type

open Schema (nameOf? withNull)

/-- **A form sends the members of its body.**  Let the body of a contract be sent as a form, and let
its schema be a record whose properties are schemas.  Then there is a request function exactly if
none of them lists several types, and its statements send the members of the body's type, one for
each property: of the type that the contract declares, or, where the schema has the name of a
component, of the type that the models module declares for this component, if it is a record with
the same names and the first of its type name. -/
theorem Contract.request_sendsBody (profile : Profile) {op : Operation} {o : Override}
    {c : Contract} {kind : FormKind} {entries : Entries} {required : List String}
    {properties : List (String × Entries)} (built : (op.contract o).result = .ok c)
    (given : c.body.defined = true) (isForm : FormBody.kind? c.body = some kind)
    (schema : c.body.schema = some (.map entries))
    (record : IsRecord entries required (FormBody.values properties)) :
    ((∃ f, c.request profile = .ok f) ↔ ∀ p ∈ properties, FitsForm p.2) ∧
    (∀ p ∈ properties,
      Script.string? (FormField.label p.1).toList = some p.1 ↔ Text.Raw p.1) ∧
    ∃ source, c.slotName? .body = some source ∧ ∀ f, c.request profile = .ok f →
      (nameOf? entries = none →
        ∃ type, c.DeclaresBody source type ∧ c.body.type = type.resolved ∧
          f.SendsBody kind source properties type.propertyKeys) ∧
      ∀ name, nameOf? entries = some name →
        c.body.type = (withNull entries (.named name)).resolved ∧
        ∀ useDates before component fields after contracts file,
          IsRecord component required fields →
          fields.map Prod.fst = properties.map Prod.fst →
          (∀ other v, (.str other, v) ∈ before → Naming.pascal other ≠ Naming.pascal name) →
          (ModelsFile.build useDates (before ++ (.str name, .map component) :: after)
            contracts).result = .ok file →
          ∃ type, file.DeclaresAs (Naming.pascal name) type ∧
            f.SendsBody kind source properties type.propertyKeys := by
  obtain ⟨path, query, header, queryTypes, headerTypes, assembled⟩ := op.contract_eq_ok built
  obtain ⟨slot, -, -, named, -⟩ := assembled.exists_bodySlot given
  have names : (FormBody.values properties).map Prod.fst = properties.map Prod.fst := by
    rw [List.map_map]
    rfl
  obtain ⟨type, read, same⟩ := Attempt.map_eq_ok (Body.normalize_type assembled.body schema)
  refine ⟨?_, fun p _ => FormField.string?_label_iff p.1, slot.name, named, fun f run => ?_⟩
  · rw [exists_request_iff named isForm, schema, FormBody.exists_form_iff record]
  have sends := request_sendsKeys named isForm schema record run
  refine ⟨fun unnamed => ?_, fun name goesBy => ⟨?_, ?_⟩⟩
  · obtain ⟨⟨members, object⟩, keys⟩ := record.propertyKeys (Or.inr unnamed) read
    have inline : c.hasModelBody = false := by
      refine Bool.eq_false_iff.mpr fun isModel => ?_
      rw [hasModelBody, ← same, List.contains_iff_mem] at isModel
      obtain ⟨name, -, text⟩ := exists_import isModel
      rw [object] at text
      exact render_ne_pascal entries members name (congrArg ImportRef.name text)
    rw [names] at keys
    exact ⟨type, assembled.declaresBody given same.symm inline named, same.symm, keys ▸ sends⟩
  · rw [record.read_named goesBy] at read
    rw [← same, ← Except.ok.inj read]
  · intro useDates before component fields after contracts file isRecord alike first run
    obtain ⟨model, member, described⟩ := ModelsFile.build_model first run
    obtain ⟨type, declares, keys⟩ := Model.ofSchema_propertyKeys isRecord described
    rw [alike] at keys
    exact ⟨type, ⟨model, member, (Model.ofSchema_eq_ok described).1, declares⟩, keys ▸ sends⟩

/-- The properties of an upload. -/
def uploadProperties : List (String × Entries) := [
  ("file", [(.str "type", .str "string"), (.str "format", .str "binary")]),
  ("tags", [(.str "type", .str "array"), (.str "items", .object [("type", .str "string")])]),
  ("alt-text", [(.str "type", .str "string")])]

/-- An object with properties, of which some are required. -/
def recordOf (required : List String) (properties : List (String × Entries)) : Entries := [
  (.str "type", .str "object"), (.str "required", .list (required.map .str)),
  (.str "properties", .object (FormBody.values properties))]

/-- An operation that is sent this schema as a form. -/
def formOperation (schema : Value) : Value := .object [
  ("operationId", .str "addUpload"), ("responses", .object []),
  ("requestBody", .object [("content", .object [
    ("multipart/form-data", .object [("schema", schema)])])])]

/-- A document with this operation, and with the schema of an upload. -/
def formDocument (schema : Value) : Value := .object [
  ("openapi", .str "3.0.0"),
  ("paths", .object [("/uploads", .object [("post", formOperation schema)])]),
  ("components", .object [("schemas", .object [
    ("Upload", .map (recordOf ["file"] uploadProperties))])])]

/-- The schema of an upload where a reference to it was. -/
def taggedUpload : Entries :=
  recordOf ["file"] uploadProperties ++ [(.str schemaNameKey, .str "Upload")]

/-- The statements that send an upload. -/
def uploadLines : List String := [
  "  formData.append('file', upload.file);",
  "  if (upload.tags !== undefined) \x7b",
  "    upload.tags.forEach(value => formData.append('tags', value));",
  "  \x7d",
  "  if (upload['alt-text'] !== undefined) \x7b",
  "    formData.append('alt-text', upload['alt-text']);",
  "  \x7d"]

theorem request_sendsBody_upload :
    (Document.load ⟨⟨[], [], []⟩, []⟩
      (.given (formDocument (schemaNode "Upload" []))) none).result =
        .ok (formDocument (.map taggedUpload)) ∧
    ∃ api op c f file type, Api.ofDocument (formDocument (.map taggedUpload)) = .ok api ∧
      api.operations = [op] ∧ (op.contract {}).result = .ok c ∧
      c.request ⟨true, true⟩ = .ok f ∧
      (ModelsFile.build false api.schemas [c]).result = .ok file ∧
      f.bodyLines = "  const formData = new FormData();" :: uploadLines ++
        ["  return axios.post(`/uploads`, formData, options);"] ∧
      file.DeclaresAs "Upload" type ∧
      f.SendsBody .formData "upload" uploadProperties type.propertyKeys := by
  have loaded : (Document.load ⟨⟨[], [], []⟩, []⟩
      (.given (formDocument (schemaNode "Upload" []))) none).result =
        .ok (formDocument (.map taggedUpload)) := rfl
  have runs : ∃ api op c f file, Api.ofDocument (formDocument (.map taggedUpload)) = .ok api ∧
      api.operations = [op] ∧ (op.contract {}).result = .ok c ∧
      c.request ⟨true, true⟩ = .ok f ∧
      (ModelsFile.build false api.schemas [c]).result = .ok file ∧
      f.bodyLines = "  const formData = new FormData();" :: uploadLines ++
        ["  return axios.post(`/uploads`, formData, options);"] ∧
      c.body.defined = true ∧ FormBody.kind? c.body = some .formData ∧
      c.body.schema = some (.map taggedUpload) ∧ c.slotName? .body = some "upload" ∧
      api.schemas = [(.str "Upload", .map (recordOf ["file"] uploadProperties))] :=
    ⟨_, _, _, _, _, rfl, rfl, rfl, rfl, rfl, rfl, rfl, rfl, rfl, rfl, rfl⟩
  obtain ⟨api, op, c, f, file, read, only, built, request, run, lines, given, isForm, schema, named,
    schemas⟩ := runs
  have record : IsRecord taggedUpload ["file"] (FormBody.values uploadProperties) :=
    ⟨by decide, rfl, rfl, by decide, rfl⟩
  have component : IsRecord (recordOf ["file"] uploadProperties) ["file"]
      (FormBody.values uploadProperties) := ⟨by decide, rfl, rfl, by decide, rfl⟩
  obtain ⟨-, -, source, named', sends⟩ :=
    Contract.request_sendsBody ⟨true, true⟩ built given isForm schema record
  obtain rfl : "upload" = source := Option.some.inj (named.symm.trans named')
  have modelled := ((sends f request).2 "Upload" rfl).2
  rw [schemas] at run
  obtain ⟨type, declared, body⟩ :=
    modelled false [] _ _ [] [c] file component rfl (by simp) run
  rw [← schemas] at run
  exact ⟨loaded, api, op, c, f, file, type, read, only, built, request, run, lines, declared, body⟩

/-- **What stands next to a reference counts for the form only**: where it requires other
properties than the component does, the form and the model disagree about both of them. -/
theorem request_overlooks_model :
    ∃ v api op c f file, (Document.load ⟨⟨[], [], []⟩, []⟩ (.given (formDocument
        (schemaNode "Upload" [("required", .list [.str "tags"])]))) none).result = .ok v ∧
      Api.ofDocument v = .ok api ∧ api.operations = [op] ∧ (op.contract {}).result = .ok c ∧
      c.body.type.text = "Upload" ∧ c.request ⟨true, true⟩ = .ok f ∧
      f.bodyLines.take 5 = ["  const formData = new FormData();",
        "  if (upload.file !== undefined) \x7b", "    formData.append('file', upload.file);",
        "  \x7d", "  upload.tags.forEach(value => formData.append('tags', value));"] ∧
      (ModelsFile.build false api.schemas [c]).result = .ok file ∧
      file.render = "export interface Upload \x7b\n  file: Blob;\n  tags?: string[];\n" ++
        "  'alt-text'?: string;\n\x7d\n" :=
  ⟨_, _, _, _, _, _, rfl, rfl, rfl, rfl, rfl, rfl, rfl, rfl, rfl⟩

/-- A note that may be null, in the spelling that lists both types. -/
def nullableNote : List (String × Entries) :=
  [("note", [(.str "type", .list [.str "string", .str "null"])])]

/-- An operation that is sent such a note. -/
def noteDocument : Value := formDocument (.map (recordOf [] nullableNote))

/-- **A property with several types has a member and no field**: a form for it cannot be built,
although its body has a type. -/
theorem request_refuses_types :
    IsRecord (recordOf [] nullableNote) [] (FormBody.values nullableNote) ∧
    ∃ api op c type, Api.ofDocument noteDocument = .ok api ∧
      api.operations = [op] ∧ (op.contract {}).result = .ok c ∧ c.body.defined = true ∧
      FormBody.kind? c.body = some .formData ∧
      c.body.schema = some (.map (recordOf [] nullableNote)) ∧
      c.DeclaresBody "addUploadBody" type ∧ type.render = "\x7b note?: string | null \x7d" ∧
      c.request ⟨true, true⟩ = illShaped := by
  refine ⟨⟨by decide, rfl, rfl, by decide, rfl⟩, ?_⟩
  let type : TypeExpr :=
    .object [(.property "note" true, .choice [.primitive .string, .primitive .null])]
  have runs : ∃ api op c, Api.ofDocument noteDocument = .ok api ∧
      api.operations = [op] ∧ (op.contract {}).result = .ok c ∧ c.body.defined = true ∧
      FormBody.kind? c.body = some .formData ∧
      c.body.schema = some (.map (recordOf [] nullableNote)) ∧
      c.declarations = [⟨"AddUploadBody", type.render, []⟩] ∧
      c.surface.slots.head? = some ⟨.body, "addUploadBody", "AddUploadBody", false, none⟩ ∧
      c.request ⟨true, true⟩ = illShaped := ⟨_, _, _, rfl, rfl, rfl, rfl, rfl, rfl, rfl, rfl, rfl⟩
  obtain ⟨api, op, c, read, only, built, given, isForm, schema, declared, slot, refused⟩ := runs
  refine ⟨api, op, c, type, read, only, built, given, isForm, schema, ?_, rfl, refused⟩
  refine ⟨_, declared ▸ List.mem_singleton_self _, rfl, _, List.mem_of_head? slot, rfl, rfl, rfl⟩

end ClientForge
