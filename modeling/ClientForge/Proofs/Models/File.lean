/-
# ClientForge.Proofs.Models.File -- what the models module declares

The models module grows by one declaration at a time, and never by a name that it has
(`Grows`).  So its names are distinct, and by the end it declares every component schema and
every type that a contract adds, under the name that stands for it (`build_declares`).  The
types that it writes name only what the component schemas name.
-/
import ClientForge.Models
import ClientForge.Proofs.Operation.Schemas
import ClientForge.Proofs.Types.Traversal

namespace ClientForge

set_option autoImplicit false

namespace Model

/-- The types that a declaration writes; one that a contract adds is written already. -/
def types : Model → List TypeExpr
  | .interface _ members => members.map Prod.snd
  | .alias _ type => [type]
  | .declared _ => []

/-- Everything that a declaration names is named in the schema. -/
def NamesFrom (schema : Value) (model : Model) : Prop :=
  ∀ type ∈ model.types, ∀ name ∈ type.names, Schema.NamedIn schema name

/-! ## Declarations of component schemas -/

theorem member_names {useDates : Bool} {required : List String} {key : Scalar} {schema : Value}
    {member : MemberKey × TypeExpr} (run : Model.member useDates required key schema = .ok member) :
    ∀ name ∈ member.2.names, Schema.NamedIn schema name := by
  unfold Model.member at run
  obtain ⟨type, read, run⟩ := Attempt.bind_eq_ok run
  obtain ⟨text, -, run⟩ := Attempt.bind_eq_ok run
  cases run
  exact Schema.read_names read

/-- An interface names what its properties and its further properties name. -/
theorem interfaceOf_eq_ok {useDates : Bool} {name : String} {entries : Entries} {model : Model}
    (run : interfaceOf useDates name entries = .ok model) :
    model.name = name ∧ ∀ type ∈ model.types, ∀ n ∈ type.names,
      (∃ properties, Entries.get? "properties" entries = some (.map properties) ∧
        ∃ entry ∈ properties, Schema.NamedIn entry.2 n) ∨
      ∃ others, Entries.get? "additionalProperties" entries = some others ∧
        Schema.NamedIn others n := by
  unfold interfaceOf at run
  obtain ⟨required, -, run⟩ := Attempt.bind_eq_ok run
  obtain ⟨properties, found, run⟩ := Attempt.bind_eq_ok run
  obtain ⟨members, read, run⟩ := Attempt.bind_eq_ok run
  have fromProperties : ∀ type ∈ members.map Prod.snd, ∀ n ∈ type.names,
      ∃ properties, Entries.get? "properties" entries = some (.map properties) ∧
        ∃ entry ∈ properties, Schema.NamedIn entry.2 n := by
    intro type among n inside
    obtain ⟨member, listed, rfl⟩ := List.mem_map.mp among
    obtain ⟨entry, there, step⟩ := exists_of_mem_right (Attempt.mapM_eq_ok read) listed
    rcases Api.mapAt_eq_ok found with ⟨-, rfl⟩ | here
    · cases there
    · exact ⟨properties, here, entry, there, member_names step n inside⟩
  split at run
  · rename_i first rest additional
    obtain ⟨others, type, run⟩ := Attempt.bind_eq_ok run
    cases run
    refine ⟨rfl, fun e among n inside => ?_⟩
    rw [types, List.map_append, List.mem_append] at among
    rcases among with declared | further
    · exact Or.inl (fromProperties e declared n inside)
    · rw [List.mem_singleton.mp further] at inside
      exact Or.inr ⟨_, additional, Schema.read_names type n inside⟩
  · cases run
    exact ⟨rfl, fun e among n inside => Or.inl (fromProperties e among n inside)⟩

/-- What is put together from several members has a property of one of them. -/
theorem mem_mergedProperties {parts : List (Entries × List Value)} {done : Entries}
    {entry : Scalar × Value}
    (member : entry ∈ parts.foldl (fun all part => Entries.putAll all part.1) done) :
    entry ∈ done ∨ ∃ part ∈ parts, ∃ source ∈ part.1, entry.2 = source.2 ∧
      (entry.1 = source.1 ∨ entry.1.same source.1 = true) := by
  induction parts generalizing done with
  | nil => exact Or.inl member
  | cons part rest ih =>
      rcases ih member with put | ⟨later, there, source, inside, same⟩
      · rcases Entries.mem_putAll put with old | ⟨source, inside, same⟩
        · exact Or.inl old
        · exact Or.inr ⟨part, List.mem_cons_self, source, inside, same⟩
      · exact Or.inr ⟨later, List.mem_cons_of_mem _ there, source, inside, same⟩

theorem plainMember?_properties {v : Value} {properties : Entries} {required : List Value}
    (found : plainMember? v = some (properties, required)) : (Value.map properties).PartOf v := by
  cases v with
  | atom a => cases found
  | list items => cases found
  | map entries =>
      unfold plainMember? at found
      dsimp only at found
      rcases ite_eq_iff.mp found with ⟨-, excluded⟩ | ⟨-, found⟩
      · cases excluded
      · split at found
        · rename_i here _
          cases found
          exact .of_get? here
        · rename_i here _
          cases found
          exact .of_get? here
        · cases found

/-- A merged `allOf` has properties of its members and nothing else that names a schema. -/
theorem merged?_eq_some {members : List Value} {merged : Entries}
    (found : merged? members = some merged) :
    Entries.get? "additionalProperties" merged = none ∧
      ∀ properties, Entries.get? "properties" merged = some (.map properties) →
        ∀ entry ∈ properties, entry.2.PartOf (.list members) := by
  unfold merged? at found
  obtain ⟨parts, each, found⟩ := Option.bind_eq_some_iff.mp found
  dsimp only at found
  split at found
  · cases found
  · cases found
    refine ⟨rfl, fun properties here entry member => ?_⟩
    cases here
    rcases mem_mergedProperties member with none | ⟨part, listed, source, inside, same, -⟩
    · cases none
    · obtain ⟨v, there, plain⟩ := exists_of_mem_right (mapM_eq_some each) listed
      have whole : source.2.PartOf v :=
        Value.PartOf.trans (.entry inside .refl) (plainMember?_properties plain)
      exact same ▸ .item there whole

/-- The declaration of a component schema has its name, and names what the schema names. -/
theorem ofSchema_eq_ok {useDates : Bool} {name : String} {schema : Value} {model : Model}
    (run : ofSchema useDates name schema = .ok model) :
    model.name = name ∧ model.NamesFrom schema := by
  unfold ofSchema at run
  obtain ⟨entries, shape, run⟩ := Attempt.bind_eq_ok run
  cases Api.asMap_eq_ok shape
  split at run
  · rename_i merged found
    obtain ⟨named, fromParts⟩ := interfaceOf_eq_ok run
    refine ⟨named, fun type among n inside => ?_⟩
    unfold mergedAllOf? at found
    split at found
    · rename_i members allOf
      obtain ⟨closed, parts⟩ := merged?_eq_some found
      rcases fromParts type among n inside with ⟨properties, here, entry, member, names⟩ | further
      · exact names.whole ((parts properties here entry member).trans (.of_get? allOf))
      · obtain ⟨others, here, -⟩ := further
        rw [closed] at here
        cases here
    · cases found
  · split at run
    · obtain ⟨named, fromParts⟩ := interfaceOf_eq_ok run
      refine ⟨named, fun type among n inside => ?_⟩
      rcases fromParts type among n inside with ⟨properties, here, entry, member, names⟩ | further
      · exact names.whole (Value.PartOf.trans (.entry member .refl) (.of_get? here))
      · obtain ⟨others, here, names⟩ := further
        exact names.whole (.of_get? here)
    · obtain ⟨type, read, run⟩ := Attempt.bind_eq_ok run
      cases run
      refine ⟨rfl, fun e among n inside => ?_⟩
      rw [List.mem_singleton.mp among] at inside
      exact Schema.read_names read n inside

end Model

namespace ModelsFile

/-! ## Adding declarations -/

/-- A models module with more declarations that satisfy `P`, none of them under a name that
is taken. -/
structure Grows (P : Model → Prop) (f g : ModelsFile) : Prop where
  keeps : ∀ model ∈ f.models, model ∈ g.models
  new : ∀ model ∈ g.models, model ∈ f.models ∨ P model
  distinct : f.names.Nodup → g.names.Nodup

namespace Grows

variable {P Q : Model → Prop} {f g h : ModelsFile}

theorem refl (P : Model → Prop) (f : ModelsFile) : Grows P f f :=
  ⟨fun _ => id, fun _ => Or.inl, id⟩

theorem trans (first : Grows P f g) (second : Grows P g h) : Grows P f h where
  keeps model member := second.keeps model (first.keeps model member)
  new model member := by
    rcases second.new model member with old | new
    · exact first.new model old
    · exact Or.inr new
  distinct := second.distinct ∘ first.distinct

theorem mono (grown : Grows P f g) (weaker : ∀ model, P model → Q model) : Grows Q f g :=
  ⟨grown.keeps, fun model member => (grown.new model member).imp_right (weaker model),
    grown.distinct⟩

theorem mem_names (grown : Grows P f g) {name : String} (member : name ∈ f.names) :
    name ∈ g.names := by
  obtain ⟨model, there, rfl⟩ := List.mem_map.mp member
  exact List.mem_map_of_mem (grown.keeps model there)

theorem add {model : Model} (free : f.declares model.name = false) (holds : P model) :
    Grows P f (f.add model) where
  keeps other member := List.mem_append_left _ member
  new other member := by
    rcases List.mem_append.mp member with old | new
    · exact Or.inl old
    · exact Or.inr (List.mem_singleton.mp new ▸ holds)
  distinct unique := by
    have absent : model.name ∉ f.names := by simpa [declares] using free
    rw [names, ModelsFile.add, List.map_append]
    refine List.nodup_append.mpr ⟨unique, by simp, ?_⟩
    rintro name old other new rfl
    rw [List.map_singleton, List.mem_singleton] at new
    exact absent (new ▸ old)

end Grows

theorem mem_names_add (f : ModelsFile) (model : Model) : model.name ∈ (f.add model).names := by
  rw [names, add, List.map_append]
  exact List.mem_append_right _ (List.mem_singleton_self _)

/-- Every type of the declaration is read from one of the schemas. -/
def Described (schemas : List (Scalar × Value)) (model : Model) : Prop :=
  ∀ type ∈ model.types, ∀ name ∈ type.names, ∃ entry ∈ schemas, Schema.NamedIn entry.2 name

/-- What a component schema is declared under. -/
def DeclaresSchema (f : ModelsFile) (key : Scalar) : Prop :=
  ∃ name, key = .str name ∧ Naming.pascal name ∈ f.names

section Steps

variable {schemas : List (Scalar × Value)} {useDates : Bool} {f g : ModelsFile}

/-- The declaration of a component schema. -/
def IsFor (useDates : Bool) (entry : Scalar × Value) (model : Model) : Prop :=
  ∃ name, entry.1 = .str name ∧ Model.ofSchema useDates (Naming.pascal name) entry.2 = .ok model

/-- A component schema is declared, unless its name is taken. -/
theorem addSchema_eq_ok {entry : Scalar × Value}
    (run : (addSchema useDates f entry).result = .ok g) :
    ∃ name, entry.1 = .str name ∧
      (Naming.pascal name ∈ f.names ∧ g = f ∨ Naming.pascal name ∉ f.names ∧
        ∃ model, Model.ofSchema useDates (Naming.pascal name) entry.2 = .ok model ∧
          g = f.add model) := by
  unfold addSchema at run
  obtain ⟨name, text, run⟩ := Traced.bind_eq_ok run
  have key : entry.1 = .str name := by
    have text : Contract.textOf (.atom entry.1) = .ok name := text
    unfold Contract.textOf at text
    split at text
    · rename_i same
      cases text
      exact Value.atom.inj same
    · cases text
  refine ⟨name, key, ?_⟩
  dsimp only at run
  split at run
  · rename_i taken
    obtain ⟨_, -, run⟩ := Traced.bind_eq_ok run
    cases run
    exact Or.inl ⟨by simpa [declares] using taken, rfl⟩
  · rename_i free
    obtain ⟨model, described, run⟩ := Traced.bind_eq_ok run
    cases run
    exact Or.inr ⟨by simpa [declares] using free, model, described, rfl⟩

theorem addSchema_grows {entry : Scalar × Value}
    (run : (addSchema useDates f entry).result = .ok g) :
    Grows (IsFor useDates entry) f g ∧ g.DeclaresSchema entry.1 := by
  obtain ⟨name, key, ⟨taken, rfl⟩ | ⟨free, model, described, rfl⟩⟩ := addSchema_eq_ok run
  · exact ⟨.refl _ _, name, key, taken⟩
  · obtain ⟨named, -⟩ := Model.ofSchema_eq_ok described
    refine ⟨.add ?_ ⟨name, key, described⟩, name, key, named ▸ mem_names_add f model⟩
    rw [named]
    simpa [declares] using free

theorem IsFor.described {entry : Scalar × Value} {model : Model}
    (isFor : IsFor useDates entry model) (member : entry ∈ schemas) : Described schemas model := by
  obtain ⟨name, -, described⟩ := isFor
  exact fun type among inner inside =>
    ⟨entry, member, (Model.ofSchema_eq_ok described).2 type among inner inside⟩

/-- A type that a contract adds is written already, so it reads no schema. -/
theorem described_declared (schemas : List (Scalar × Value)) (d : Declaration) :
    Described schemas (.declared d) := by
  intro type among
  cases among

theorem addDeclaration_grows {P : Model → Prop} {operation : String} {d : Declaration}
    (holds : P (.declared d)) (run : (addDeclaration operation f d).result = .ok g) :
    Grows P f g ∧ d.name ∈ g.names := by
  unfold addDeclaration at run
  split at run
  · rename_i taken
    obtain ⟨_, -, run⟩ := Traced.bind_eq_ok run
    cases run
    exact ⟨.refl _ _, by simpa [declares] using taken⟩
  · rename_i free
    cases run
    exact ⟨.add (Bool.eq_false_iff.mpr free) holds, mem_names_add f _⟩

/-- Steps that grow a module and reach something that stays, one for each item of a list. -/
theorem foldlM_grows {α : Type} {P : Model → Prop} (Reached : α → ModelsFile → Prop)
    {step : ModelsFile → α → Traced ModelsFile} {xs : List α}
    (each : ∀ x ∈ xs, ∀ f g, (step f x).result = .ok g → Grows P f g ∧ Reached x g)
    (stays : ∀ x f g, Grows P f g → Reached x f → Reached x g)
    (run : (xs.foldlM step f).result = .ok g) : Grows P f g ∧ ∀ x ∈ xs, Reached x g := by
  induction xs generalizing f with
  | nil =>
      cases run
      exact ⟨.refl P _, by simp⟩
  | cons x rest ih =>
      rw [List.foldlM_cons] at run
      obtain ⟨h, first, run⟩ := Traced.bind_eq_ok run
      obtain ⟨grown, reached⟩ := each x List.mem_cons_self f h first
      obtain ⟨later, others⟩ := ih (fun y member => each y (List.mem_cons_of_mem _ member)) run
      refine ⟨grown.trans later, fun y member => ?_⟩
      rcases List.mem_cons.mp member with rfl | member
      · exact stays _ h g later reached
      · exact others y member

/-- Steps that keep what is declared, one for each item of a list. -/
theorem foldlM_keeps {α : Type} {step : ModelsFile → α → Traced ModelsFile} {xs : List α}
    (each : ∀ x f g, (step f x).result = .ok g → ∀ model ∈ f.models, model ∈ g.models)
    (run : (xs.foldlM step f).result = .ok g) : ∀ model ∈ f.models, model ∈ g.models := by
  induction xs generalizing f with
  | nil =>
      cases run
      exact fun _ => id
  | cons x rest ih =>
      rw [List.foldlM_cons] at run
      obtain ⟨h, first, run⟩ := Traced.bind_eq_ok run
      exact fun model member => ih run model (each x f h first model member)

theorem addContract_grows {P : Model → Prop} {c : Contract}
    (holds : ∀ d ∈ c.declarations, P (.declared d)) (run : (addContract f c).result = .ok g) :
    Grows P f g ∧ ∀ d ∈ c.declarations, d.name ∈ g.names :=
  foldlM_grows (fun d f => d.name ∈ f.names)
    (fun d member _ _ step => addDeclaration_grows (holds d member) step)
    (fun _ _ _ grown member => grown.mem_names member) run

/-- The models module grows by declarations for component schemas and by those of contracts, and
in the end it has a name for each of them. -/
theorem build_grows {P : Model → Prop} {contracts : List Contract} {file : ModelsFile}
    (ofSchema : ∀ entry ∈ schemas, ∀ model, IsFor useDates entry model → P model)
    (ofContract : ∀ c ∈ contracts, ∀ d ∈ c.declarations, P (.declared d))
    (run : (build useDates schemas contracts).result = .ok file) :
    Grows P ⟨[]⟩ file ∧ (∀ schema ∈ schemas, file.DeclaresSchema schema.1) ∧
      ∀ c ∈ contracts, ∀ d ∈ c.declarations, d.name ∈ file.names := by
  unfold build at run
  obtain ⟨middle, first, run⟩ := Traced.bind_eq_ok run
  have stays : ∀ (schema : Scalar × Value) f g, Grows P f g →
      f.DeclaresSchema schema.1 → g.DeclaresSchema schema.1 := by
    rintro schema f g grown ⟨name, key, member⟩
    exact ⟨name, key, grown.mem_names member⟩
  obtain ⟨grown, declared⟩ := foldlM_grows (fun schema f => f.DeclaresSchema schema.1)
    (fun schema member f g step =>
      (addSchema_grows step).imp_left (·.mono (ofSchema schema member)))
    stays first
  obtain ⟨grown', added⟩ := foldlM_grows
    (fun (c : Contract) f => ∀ d ∈ c.declarations, d.name ∈ f.names)
    (fun c member f g step => addContract_grows (ofContract c member) step)
    (fun _ _ _ grown each d member => grown.mem_names (each d member)) run
  exact ⟨grown.trans grown',
    fun schema member => stays schema middle file grown' (declared schema member), added⟩

/-- **What the models module declares.**  Its names are distinct; there is one for every
component schema and for every type that a contract adds; and its own types name only what
component schemas name. -/
theorem build_declares {contracts : List Contract} {file : ModelsFile}
    (run : (build useDates schemas contracts).result = .ok file) :
    file.names.Nodup ∧ (∀ model ∈ file.models, Described schemas model) ∧
      (∀ schema ∈ schemas, file.DeclaresSchema schema.1) ∧
      ∀ c ∈ contracts, ∀ d ∈ c.declarations, d.name ∈ file.names := by
  obtain ⟨grown, declared, added⟩ := build_grows (P := Described schemas)
    (fun entry member model isFor => isFor.described member)
    (fun c _ d _ => described_declared schemas d) run
  refine ⟨grown.distinct List.nodup_nil, fun model member => ?_, declared, added⟩
  rcases grown.new model member with none | described
  · cases none
  · exact described

end Steps

end ModelsFile

end ClientForge
