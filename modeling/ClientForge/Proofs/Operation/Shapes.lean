/-
# ClientForge.Proofs.Operation.Shapes -- documents whose parts have the right shape

A document is refused as a whole only if one of its parts is no map, or no list, where it has to be
one (`ofDocument_failsOnly`).  `IsDescription` names these parts, level by level: components and
paths, the operations of a path, their parameters, bodies and responses, and the media types of
each.  It does not look into schemas, and of a name it asks no more than that it can be compared.

There is one lemma for each level, and each of them asks for no more than that the reason holds if
its own level has the wrong shape.
-/
import ClientForge.Proofs.Operation.Schemas

namespace ClientForge.Api

set_option autoImplicit false

open Attempt (FailsOnly)

/-! ## Shapes -/

/-- Where something stands under the key, it is a map like that. -/
def MapAt (key : String) (P : Entries → Prop) (entries : Entries) : Prop :=
  ∀ v, Entries.get? key entries = some v → ∃ inner, v = .map inner ∧ P inner

/-- Every value is a map like that. -/
def Maps (P : Entries → Prop) (entries : Entries) : Prop :=
  ∀ entry ∈ entries, ∃ inner, entry.2 = .map inner ∧ P inner

/-- The media types of a part are maps. -/
def HasContent : Entries → Prop := MapAt "content" (Maps fun _ => True)

/-- A parameter has media types, and its name and its location can be compared if it has both. -/
structure IsParameter (entries : Entries) : Prop where
  key : ∀ name location, Entries.get? "name" entries = some name →
    Entries.get? "in" entries = some location → name.truthy = true → location.truthy = true →
      (∃ a, name = .atom a) ∧ ∃ b, location = .atom b
  content : HasContent entries

/-- The parameters of a path and those of an operation are two lists of parameters; two empty texts
do as well. -/
inductive AreParameters : Value → Value → Prop
  | lists {common specific : List Value}
      (each : ∀ v ∈ common ++ specific, ∃ entries, v = .map entries ∧ IsParameter entries) :
      AreParameters (.list common) (.list specific)
  | texts : AreParameters (.str "") (.str "")

/-- An operation, next to the parameters of its path. -/
structure IsOperation (common : Value) (entries : Entries) : Prop where
  parameters : AreParameters common ((Entries.get? "parameters" entries).getD (.list []))
  requestBody : ∀ v, Entries.get? "requestBody" entries = some v → v.truthy = true →
    ∃ body, v = .map body ∧ HasContent body
  responses : MapAt "responses" (Maps HasContent) entries
  keys : ∀ entry ∈ entries, ∃ s, entry.1 = .str s

/-- What stands under the verbs of a path are operations. -/
def IsPathItem (item : Entries) : Prop :=
  ∀ (verb : Verb) (v : Value), Entries.get? verb.name item = some v → v.truthy = true →
    ∃ entries, v = .map entries ∧
      IsOperation ((Entries.get? "parameters" item).getD (.list [])) entries

/-- The parts of a document are maps and lists where they have to be. -/
def IsDescription (document : Value) : Prop :=
  ∃ entries, document = .map entries ∧
    MapAt "components" (MapAt "schemas" fun _ => True) entries ∧
    MapAt "paths" (Maps IsPathItem) entries

/-! ## Parts -/

section Parts

variable {α : Type} {reasons : Failure → Prop} {entries : Entries}

/-- A value that has to be a map, and what is done with it then. -/
theorem bind_asMap_failsOnly {v : Value} {P : Entries → Prop} {f : Entries → Attempt α}
    (shape : (¬ ∃ inner, v = .map inner ∧ P inner) → reasons .illShaped)
    (later : ∀ inner, v = .map inner → (¬ P inner → reasons .illShaped) →
      (f inner).FailsOnly reasons) : (asMap v >>= f).FailsOnly reasons := by
  cases v with
  | map inner =>
      refine later inner rfl fun bad => shape ?_
      rintro ⟨_, ⟨⟩, good⟩
      exact bad good
  | atom a =>
      refine .error (shape ?_)
      rintro ⟨_, ⟨⟩, -⟩
  | list items =>
      refine .error (shape ?_)
      rintro ⟨_, ⟨⟩, -⟩

/-- The map under a key, or an empty one, and what is done with it. -/
theorem bind_mapAt_failsOnly {key : String} {P : Entries → Prop} {f : Entries → Attempt α}
    (shape : ¬ MapAt key P entries → reasons .illShaped) (empty : P [])
    (later : ∀ inner, (¬ P inner → reasons .illShaped) → (f inner).FailsOnly reasons) :
    (mapAt key entries >>= f).FailsOnly reasons := by
  unfold mapAt
  cases found : Entries.get? key entries with
  | none => exact later [] fun bad => absurd empty bad
  | some v =>
      refine bind_asMap_failsOnly (fun bad => shape fun good => bad (good v found)) ?_
      exact fun inner _ => later inner

/-- Each value of a map, and what is done with it. -/
theorem mapM_asMap_failsOnly {P : Entries → Prop} {f : Scalar → Entries → Attempt α}
    (shape : ¬ Maps P entries → reasons .illShaped)
    (each : ∀ k inner, (¬ P inner → reasons .illShaped) → (f k inner).FailsOnly reasons) :
    (entries.mapM fun entry => asMap entry.2 >>= f entry.1).FailsOnly reasons := by
  refine .mapM fun entry member => ?_
  refine bind_asMap_failsOnly (fun bad => shape fun good => bad (good entry member)) ?_
  exact fun inner _ => each entry.1 inner

theorem mediaTypes_failsOnly (shape : ¬ HasContent entries → reasons .illShaped) :
    (mediaTypes entries).FailsOnly reasons := by
  unfold mediaTypes
  refine bind_mapAt_failsOnly shape (fun _ member => absurd member List.not_mem_nil) ?_
  intro content bad
  exact mapM_asMap_failsOnly (P := fun _ => True)
    (f := fun contentType media => .ok (⟨contentType, valueAt "schema" media⟩ : MediaType)) bad
    fun _ _ _ => .ok _

/-! ## Parameters -/

theorem parameterKey_failsOnly (shape : ¬ IsParameter entries → reasons .illShaped) :
    (parameterKey entries).FailsOnly reasons := by
  unfold parameterKey
  dsimp only
  split
  · rename_i given
    obtain ⟨named, located⟩ := Bool.and_eq_true_iff.mp given
    split
    · exact .ok _
    · rename_i incomparable
      refine .error (shape fun good => ?_)
      -- null does not count as given, so there is a name and a location
      have stands : ∀ key, (((Entries.get? key entries).getD .null).truthy = true) →
          ∃ v, Entries.get? key entries = some v ∧ v.truthy = true := by
        intro key truthy
        cases found : Entries.get? key entries with
        | none =>
            rw [found] at truthy
            cases truthy
        | some v =>
            rw [found] at truthy
            exact ⟨v, rfl, truthy⟩
      obtain ⟨name, hasName, isName⟩ := stands "name" named
      obtain ⟨location, hasLocation, isLocation⟩ := stands "in" located
      obtain ⟨⟨a, rfl⟩, b, rfl⟩ := good.key name location hasName hasLocation isName isLocation
      exact incomparable a b (by rw [hasName]; rfl) (by rw [hasLocation]; rfl)
  · exact .ok _

theorem parameterOf_failsOnly (shape : ¬ IsParameter entries → reasons .illShaped) :
    (parameterOf entries).FailsOnly reasons :=
  .bind (mediaTypes_failsOnly fun bad => shape fun good => bad good.content) fun _ _ => .ok _

theorem appendLists_failsOnly {common specific : Value}
    (shape : ¬ AreParameters common specific → reasons .illShaped) :
    (appendLists common specific).FailsOnly reasons := by
  unfold appendLists
  split
  · exact .ok _
  · exact .ok _
  · rename_i noLists noTexts
    refine .error (shape fun good => ?_)
    cases good with
    | lists => exact noLists _ _ rfl rfl
    | texts => exact noTexts rfl rfl

/-- If the shapes are right, what is declared at the two places are parameters. -/
theorem appendLists_declared {common specific : Value} {declared : List Value}
    (run : appendLists common specific = .ok declared) (good : AreParameters common specific) :
    ∀ v ∈ declared, ∃ entries, v = .map entries ∧ IsParameter entries := by
  cases good with
  | lists each =>
      cases run
      exact each
  | texts =>
      cases run
      exact fun _ member => absurd member List.not_mem_nil

theorem mergeParameters_failsOnly {common specific : Value}
    (shape : ¬ AreParameters common specific → reasons .illShaped) :
    (mergeParameters common specific).FailsOnly reasons := by
  unfold mergeParameters
  refine .bind (appendLists_failsOnly shape) fun declared lists => ?_
  refine .bind (.mapM fun v member => ?_) fun keyed keys => .mapM fun entry member => ?_
  · refine bind_asMap_failsOnly (P := IsParameter)
      (fun bad => shape fun good => bad (appendLists_declared lists good v member)) ?_
    exact fun entries _ bad => .bind (parameterKey_failsOnly bad) fun _ _ => .ok _
  · -- what is left after merging was declared somewhere
    refine parameterOf_failsOnly fun bad => shape fun good => bad ?_
    obtain ⟨source, origin, same⟩ := (mem_putParameters member).resolve_right List.not_mem_nil
    obtain ⟨v, there, read⟩ := exists_of_mem_right (Attempt.mapM_eq_ok keys) origin
    obtain ⟨entries, isMap, read⟩ := Attempt.bind_eq_ok read
    obtain ⟨_, -, read⟩ := Attempt.bind_eq_ok read
    cases read
    obtain ⟨_, again, isParameter⟩ := appendLists_declared lists good v there
    obtain rfl := Value.map.inj ((asMap_eq_ok isMap).symm.trans again)
    rwa [same]

/-! ## Operations -/

theorem requestBodyOf_failsOnly {common : Value}
    (shape : ¬ IsOperation common entries → reasons .illShaped) :
    (requestBodyOf entries).FailsOnly reasons := by
  unfold requestBodyOf
  cases found : Entries.get? "requestBody" entries with
  | none => exact .ok _
  | some v =>
      dsimp only
      split
      · rename_i given
        refine bind_asMap_failsOnly (P := HasContent)
          (fun bad => shape fun good => bad (good.requestBody v found given)) ?_
        exact fun body _ bad => .bind (mediaTypes_failsOnly bad) fun _ _ => .ok _
      · exact .ok _

theorem responsesOf_failsOnly {common : Value}
    (shape : ¬ IsOperation common entries → reasons .illShaped) :
    (responsesOf entries).FailsOnly reasons := by
  unfold responsesOf
  refine bind_mapAt_failsOnly (P := Maps HasContent)
    (fun bad => shape fun good => bad good.responses)
    (fun _ member => absurd member List.not_mem_nil) fun responses bad => ?_
  refine mapM_asMap_failsOnly (P := HasContent) (f := fun status response => do
      return (⟨status.shown, valueAt "description" response,
        ← mediaTypes response⟩ : Response)) bad ?_
  exact fun status response bad => .bind (mediaTypes_failsOnly bad) fun _ _ => .ok _

theorem extensionsOf_failsOnly {common : Value}
    (shape : ¬ IsOperation common entries → reasons .illShaped) :
    (extensionsOf entries).FailsOnly reasons := by
  unfold extensionsOf
  split
  · exact .ok _
  · rename_i other
    refine .error (shape fun good => other (List.all_eq_true.mpr fun entry member => ?_))
    obtain ⟨s, same⟩ := good.keys entry member
    rw [same]

theorem operationsOf_failsOnly {path : Scalar} {item : Value}
    (shape : (¬ ∃ entries, item = .map entries ∧ IsPathItem entries) → reasons .illShaped) :
    (operationsOf path item).FailsOnly reasons := by
  unfold operationsOf
  refine bind_asMap_failsOnly shape fun entries _ bad => ?_
  refine .bind (.mapM fun verb _ => ?_) fun operations _ => .ok _
  cases found : Entries.get? verb.name entries with
  | none => exact .ok _
  | some v =>
      dsimp only
      split
      · rename_i given
        refine FailsOnly.map ?_
        refine bind_asMap_failsOnly (fun isNone => bad fun good => isNone (good verb v found given))
          fun fields _ bad => ?_
        refine .bind (mergeParameters_failsOnly fun none => bad fun good => none good.parameters)
          fun parameters _ => ?_
        refine .bind (requestBodyOf_failsOnly bad) fun requestBody _ => ?_
        refine .bind (responsesOf_failsOnly bad) fun responses _ => ?_
        exact .bind (extensionsOf_failsOnly bad) fun extensions _ => .ok _
      · exact .ok _

end Parts

/-! ## Documents -/

/-- **A document is refused for nothing but a part of the wrong shape.** -/
theorem ofDocument_failsOnly (document : Value) :
    (ofDocument document).FailsOnly fun e => e = .illShaped ∧ ¬ IsDescription document := by
  have shape : (¬ IsDescription document) →
      Failure.illShaped = .illShaped ∧ ¬ IsDescription document := fun bad => ⟨rfl, bad⟩
  unfold ofDocument
  refine bind_asMap_failsOnly shape fun entries _ bad => ?_
  refine bind_mapAt_failsOnly (P := MapAt "schemas" fun _ => True)
    (fun none => bad fun good => none good.1) (fun _ found => by cases found) ?_
  intro components none
  refine bind_mapAt_failsOnly none trivial fun schemas _ => ?_
  refine bind_mapAt_failsOnly (P := Maps IsPathItem) (fun none => bad fun good => none good.2)
    (fun _ member => absurd member List.not_mem_nil) fun paths none => ?_
  refine .bind (.mapM fun entry member => ?_) fun operations _ => .ok _
  exact operationsOf_failsOnly fun isNone => none fun good => isNone (good entry member)

end ClientForge.Api
