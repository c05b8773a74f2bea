/-
# ClientForge.Proofs.Client.Refusals -- when the code of a well typed operation is not written

The flavors that come with the generator write the code of every operation whose parts have the
right types, with one exception (`request_failsOnly`): a form field is made from the one type of a
property, so a property with a list of types, which is a good schema everywhere else, has no field
(`HasTypeList`).  It matters only where the body is sent as a form, and then even an array of such
items is not sent.
-/
import ClientForge.Proofs.Client.Failures
import ClientForge.Proofs.Contract.Surfaces

namespace ClientForge

set_option autoImplicit false

open Attempt (FailsOnly)
open Schema (HasShape)

/-! ## Fields -/

/-- The types of the schema, or those of its items, stand in a list. -/
inductive HasTypeList : Value → Prop
  | own {entries : Entries} {names : List Value}
      (several : Entries.get? "type" entries = some (.list names)) : HasTypeList (.map entries)
  | items {entries items : Entries} {names : List Value}
      (array : Entries.get? "type" entries = some (.str "array"))
      (there : Entries.get? "items" entries = some (.map items))
      (several : Entries.get? "type" items = some (.list names)) : HasTypeList (.map entries)

/-- The media type is that of a form. -/
def IsFormType (contentType : Scalar) : Prop :=
  ∃ s, contentType = .str s ∧
    (formDataType.toList <+: s.toList ∨ formUrlEncodedType.toList <+: s.toList)

/-- The body of the operation is sent as a form, and has a property with a list of types. -/
def Operation.SendsTypeList (op : Operation) : Prop :=
  ∃ body media rest entries properties, ∃ property ∈ properties,
    op.requestBody = some body ∧ body.content = media :: rest ∧ IsFormType media.contentType ∧
      media.schema = some (.map entries) ∧
      Entries.get? "properties" entries = some (.map properties) ∧ HasTypeList property.2

namespace FormBody

variable {entries : Entries}

/-- A schema of the right shape has a conversion, unless its types stand in a list. -/
theorem conversionFor_failsOnly_list (shaped : HasShape .schema (.map entries)) :
    (conversionFor entries).FailsOnly fun _ =>
      ∃ names, Entries.get? "type" entries = some (.list names) := by
  unfold conversionFor
  cases found : Entries.get? "type" entries with
  | none => exact .ok _
  | some v =>
      cases shaped.under (by decide : Schema.shapeOf? "type" = some .textOrTexts) found with
      | oneText s =>
          dsimp only
          repeat' split
          all_goals exact .ok _
      | allTexts names => exact .error ⟨_, rfl⟩

theorem fieldOf_failsOnly_list (required : List String) {key : Scalar} {schema : Value}
    (text : ∃ s, key = .str s) (shaped : HasShape .schema schema) :
    (fieldOf required key schema).FailsOnly fun _ => HasTypeList schema := by
  obtain ⟨s, rfl⟩ := text
  cases shaped with
  | @schema entries each =>
      have own : HasShape .schema (.map entries) := .schema each
      have converted : (conversionFor entries).FailsOnly fun _ => HasTypeList (.map entries) :=
        (conversionFor_failsOnly_list own).mono fun _ ⟨_, several⟩ => .own several
      refine .bind (.ok s) fun name _ => .bind (.ok entries) fun _ same => ?_
      cases same
      dsimp only
      split
      · rename_i array
        split
        · rename_i items there
          have inner : HasShape .schema (.map items) := each "items" .schema _ (by decide) there
          refine .bind ((conversionFor_failsOnly_list inner).mono ?_) fun _ _ => .ok _
          exact fun _ ⟨_, several⟩ => .items array there several
        · exact .ok _
      · exact .bind converted fun _ _ => .ok _

/-- A form is made from a schema of the right shape, unless a property has a list of types. -/
theorem ofSchema_failsOnly_list (kind : FormKind) (source : String) {schema : Option Value}
    (shaped : ∀ v, schema = some v → HasShape .schema v) :
    (ofSchema kind source schema).FailsOnly fun _ =>
      ∃ entries properties, ∃ property ∈ properties, schema = some (.map entries) ∧
        Entries.get? "properties" entries = some (.map properties) ∧ HasTypeList property.2 := by
  cases schema with
  | none => exact .ok _
  | some v =>
      cases shaped v rfl with
      | @schema entries each =>
          unfold ofSchema
          dsimp only [Option.getD_some]
          split
          · refine .bind (.ok entries) fun _ same => ?_
            cases same
            split
            · exact .ok _
            · rename_i given
              obtain ⟨required, listed⟩ := Schema.requiredNames_eq_ok fun w here =>
                each "required" .texts w (by decide) here
              obtain ⟨w, found⟩ := Schema.exists_of_given (by simpa using given)
              rw [listed, found]
              have shape : HasShape .properties w :=
                each "properties" .properties w (by decide) found
              cases shape with
              | @properties declared inside =>
                  refine .bind (.ok required) fun _ _ => ?_
                  refine .bind (.ok _) fun properties same => ?_
                  cases same
                  refine .bind (.mapM fun property member => ?_) fun fields _ => .ok _
                  obtain ⟨field, among, rfl⟩ := List.mem_map.mp member
                  refine (fieldOf_failsOnly_list _ ⟨field.1, rfl⟩ (inside field among)).mono ?_
                  exact fun _ several => ⟨entries, _, _, member, rfl, found, several⟩
          · exact .ok _

end FormBody

/-! ## Bodies -/

/-- A body is that of the first media type, and a form only if the media type is one. -/
theorem Body.normalize_cases {o : Override} {request : Option RequestBody} {body : Body}
    (run : normalize o request = .ok body) :
    body = .none ∨ ∃ raw media rest, request = some raw ∧ raw.content = media :: rest ∧
      body.mediaType = some media.contentType ∧ body.schema = media.schema ∧
      ((FormBody.kind? body).isSome = true → IsFormType media.contentType) := by
  unfold normalize at run
  split at run
  · cases run
    exact Or.inl rfl
  · rename_i raw
    split at run
    · cases run
      exact Or.inl rfl
    · rename_i media rest content
      -- a form is one because of how the name of its media type begins
      have begins : ∀ {given start}, (if given = true then hasType start media.contentType
          else pure false : Attempt Bool) = .ok true →
          ∃ s, media.contentType = .str s ∧ start.toList <+: s.toList := by
        intro given start checked
        split at checked
        · unfold hasType at checked
          split at checked
          · rename_i s text
            exact ⟨s, text, List.isPrefixOf_iff_prefix.mp (Except.ok.inj checked)⟩
          · cases checked
        · cases checked
      obtain ⟨type, -, run⟩ := Attempt.bind_eq_ok run
      obtain ⟨isFormData, formData, run⟩ := Attempt.choice_bind_eq_ok run
      obtain ⟨isFormUrlEncoded, formUrlEncoded, run⟩ := Attempt.choice_bind_eq_ok run
      cases run
      refine Or.inr ⟨raw, media, rest, rfl, content, rfl, rfl, fun isForm => ?_⟩
      cases isFormData with
      | true =>
          obtain ⟨s, text, start⟩ := begins formData
          exact ⟨s, text, Or.inl start⟩
      | false =>
          cases isFormUrlEncoded with
          | true =>
              obtain ⟨s, text, start⟩ := begins formUrlEncoded
              exact ⟨s, text, Or.inr start⟩
          | false => cases isForm

namespace Contract

variable {op : Operation} {o : Override} {c : Contract} {profile : Profile}

/-- **The code of an operation of the right types is written**, unless it sends a form with a list
of types. -/
theorem request_failsOnly_list (typed : op.WellTyped) (built : (op.contract o).result = .ok c)
    (profile : Profile) : (c.request profile).FailsOnly fun _ => op.SendsTypeList := by
  obtain ⟨_, _, _, _, _, assembled⟩ := op.contract_eq_ok built
  have form : c.form?.FailsOnly fun _ => op.SendsTypeList := by
    unfold form?
    split
    · rename_i source kind _ sent
      rcases Body.normalize_cases assembled.body with
        none | ⟨raw, media, rest, request, content, -, own, isForm⟩
      · rw [none] at sent
        cases sent
      · have shaped : ∀ v, c.body.schema = some v → HasShape .schema v := fun v found =>
          (typed.body raw request media (content ▸ List.mem_cons_self)).2 v (own ▸ found)
        refine FailsOnly.map ((FormBody.ofSchema_failsOnly_list kind source shaped).mono ?_)
        rintro _ ⟨entries, properties, property, member, schema, declared, several⟩
        have formType : IsFormType media.contentType := isForm (by rw [sent]; rfl)
        exact ⟨raw, media, rest, entries, properties, property, member, request, content, formType,
          own ▸ schema, declared, several⟩
    · exact .ok _
  have contentType : c.contentType?.FailsOnly fun _ => op.SendsTypeList := by
    unfold contentType?
    repeat' split
    all_goals try exact .ok _
    rename_i a noText found _
    -- the media type of an operation of the right types is a text
    rcases Body.normalize_cases assembled.body with
      none | ⟨raw, media, rest, request, content, type, -⟩
    · rw [none] at found
      cases found
    · obtain ⟨s, text⟩ := (typed.body raw request media (content ▸ List.mem_cons_self)).1
      rw [type, text] at found
      cases found
      exact absurd rfl (noText s)
  refine .bind form fun form _ => ?_
  split
  · exact .bind (.bind contentType fun _ _ => .ok _) fun _ _ => .ok _
  · exact .ok _

end Contract

/-- The flavors that come with the generator write what they are given for the same reason, or not
at all. -/
theorem Registry.builtIn_failsOnly_list {op : Operation} {o : Override} {c : Contract}
    {name : String} {profile : Profile} {f : Flavor} (found : builtIn.get name profile = .ok f)
    (typed : op.WellTyped) (built : (op.contract o).result = .ok c) :
    (f.client c).result.FailsOnly fun _ => op.SendsTypeList := by
  have request := Contract.request_failsOnly_list typed built profile
  rcases builtIn_get found with ⟨-, rfl⟩ | ⟨-, rfl⟩
  · exact .bind request fun _ _ => .ok _
  · refine Traced.bind_failsOnly request fun _ _ => ?_
    split
    · exact .ok _
    · exact .ok _

end ClientForge
