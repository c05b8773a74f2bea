/-
# ClientForge.Proofs.Models.Emission -- when the models of a loaded document can be written

Resolving leaves references in a document, and the models module can be written only if all
of them stand for component schemas.  Whether they do is decided by the references that are
cut off: one that leads back to itself is left as it stands, whatever it stands for, together
with everything next to it.  Where only component schemas are cut off, everything that is
left can be read, and no declaration is refused for a reference (`load_emittable`).  Where
something else is recursive, a component schema may refer to it, and the models module is
refused (`load_not_emittable`).
-/
import ClientForge.Proofs.Contract.Slots
import ClientForge.Proofs.Models.Integrity
import ClientForge.Proofs.Reference.Recursion
import ClientForge.Proofs.Types.Failures

namespace ClientForge

set_option autoImplicit false

open Resolver
open Attempt (FailsOnly)
open Schema (StandsForSchema Unreadable)

/-! ## Why a component schema is not declared -/

namespace Model

variable {reasons : Failure → Prop} {useDates : Bool}

theorem member_failsOnly (shape : reasons .illShaped) (required : List String) (key : Scalar)
    {schema : Value} (inside : ∀ e, Unreadable schema e → reasons e) :
    FailsOnly reasons (Model.member useDates required key schema) := by
  have read := Schema.read_failsOnly useDates schema schema .refl false
  refine .bind (read.mono inside) fun type _ => ?_
  exact .bind (Contract.textOf_failsOnly shape _) fun name _ => .ok _

/-- An interface is refused for one of its properties, or for its further properties. -/
theorem interfaceOf_failsOnly (shape : reasons .illShaped) (name : String) {entries : Entries}
    (inProperties : ∀ properties, Entries.get? "properties" entries = some (.map properties) →
      ∀ entry ∈ properties, ∀ e, Unreadable entry.2 e → reasons e)
    (inOthers : ∀ others, Entries.get? "additionalProperties" entries = some others →
      ∀ e, Unreadable others e → reasons e) :
    FailsOnly reasons (interfaceOf useDates name entries) := by
  refine .bind (Schema.requiredNames_failsOnly shape _) fun required _ => ?_
  refine .bind (Api.mapAt_failsOnly shape _ _) fun properties found => ?_
  refine .bind (.mapM fun entry member => ?_) fun members _ => ?_
  · rcases Api.mapAt_eq_ok found with ⟨-, rfl⟩ | here
    · cases member
    · exact member_failsOnly shape required entry.1 (inProperties properties here entry member)
  · split
    · rename_i first rest additional
      have read := Schema.read_failsOnly useDates (.map (first :: rest)) _ .refl false
      exact .bind (read.mono (inOthers _ additional)) fun others _ => .ok _
    · exact .ok _

/-- A component schema is not declared because it, or a part of it, is unreadable. -/
theorem ofSchema_failsOnly (name : String) (schema : Value) :
    FailsOnly (Unreadable schema) (ofSchema useDates name schema) := by
  refine .bind (Api.asMap_failsOnly .illShaped schema) fun entries shape => ?_
  cases Api.asMap_eq_ok shape
  split
  · rename_i merged found
    unfold mergedAllOf? at found
    split at found
    · rename_i members allOf
      obtain ⟨closed, parts⟩ := merged?_eq_some found
      refine interfaceOf_failsOnly .illShaped name
        (fun properties here entry member e unreadable => ?_) (fun others here => ?_)
      · exact unreadable.whole ((parts properties here entry member).trans (.of_get? allOf))
      · rw [closed] at here
        cases here
    · cases found
  · split
    · refine interfaceOf_failsOnly .illShaped name
        (fun properties here entry member e unreadable => ?_)
        (fun others here e unreadable => unreadable.whole (.of_get? here))
      exact unreadable.whole (Value.PartOf.trans (.entry member .refl) (.of_get? here))
    · exact .bind (Schema.read_failsOnly useDates _ _ .refl true) fun type _ => .ok _

end Model

namespace ModelsFile

/-- The models module is refused because a component schema is unreadable. -/
theorem build_failsOnly {reasons : Failure → Prop} (shape : reasons .illShaped)
    (useDates : Bool) {schemas : List (Scalar × Value)}
    (inSchemas : ∀ entry ∈ schemas, ∀ e, Unreadable entry.2 e → reasons e)
    (contracts : List Contract) :
    (build useDates schemas contracts).result.FailsOnly reasons := by
  refine Traced.bind_failsOnly ?_ fun file _ => ?_
  · refine Traced.foldlM_failsOnly fun entry member file => ?_
    refine Traced.bind_failsOnly (Contract.textOf_failsOnly shape _) fun name _ => ?_
    dsimp only
    split
    · exact .ok file
    · refine Traced.bind_failsOnly ?_ fun model _ => .ok _
      exact (Model.ofSchema_failsOnly _ entry.2).mono (inSchemas entry member)
  · refine Traced.foldlM_failsOnly fun c _ file => ?_
    refine Traced.foldlM_failsOnly fun d _ file => ?_
    unfold addDeclaration
    split
    · exact .ok file
    · exact .ok _

end ModelsFile

/-! ## Loaded documents -/

/-- **What is left of references can be written.**  If nothing but references to component
schemas is cut off, in itself and in what stands next to it, then all references that are
left in the loaded document are such, every schema in it can be read unless a value in it
has the wrong shape, and the same holds of the models module, for any contracts. -/
theorem load_emittable {world : World} {origin : Origin} {document v : Value}
    {base folder : Option Files.Path}
    (opened : Document.readOrigin world origin base = .ok (document, folder))
    (recursion : ∀ here entries reference,
      (Sources.within world.files document).CutOff (folder.getD ⟨false, []⟩) here entries
        reference → (Value.map entries).EveryReference StandsForSchema)
    (loaded : (Document.load world origin base).result = .ok v) :
    v.EveryReference StandsForSchema ∧
      (∀ schema, schema.PartOf v → ∀ useDates inlineNamed,
        (Schema.resolve useDates schema inlineNamed).FailsOnly (· = .illShaped)) ∧
      ∀ api, Api.ofDocument v = .ok api → ∀ useDates contracts,
        (ModelsFile.build useDates api.schemas contracts).result.FailsOnly (· = .illShaped) := by
  obtain ⟨s, resolved⟩ := load_eq_ok opened loaded
  have every : v.EveryReference StandsForSchema := by
    refine (resolve_leftover resolved).mono ?_
    rintro x ⟨here, entries, reference, inner, cut, part, refers⟩
    exact recursion here entries reference cut inner part x refers
  have readable : ∀ schema, schema.PartOf v → ∀ e, Unreadable schema e → e = .illShaped :=
    fun schema part e unreadable => unreadable.illShaped_of (every.part part)
  refine ⟨every, fun schema part useDates inlineNamed => ?_, fun api read useDates contracts => ?_⟩
  · have reads := Schema.read_failsOnly useDates schema schema .refl inlineNamed
    exact (reads.mono (readable schema part)).map
  · obtain ⟨inSchemas, -⟩ := Api.ofDocument_schemas read
    refine ModelsFile.build_failsOnly ?_ useDates (fun entry member => ?_) contracts
    · rfl
    · exact readable entry.2 (inSchemas entry member)

/-- A document with a recursive schema and a parameter that is referred to. -/
def likedNodes : Value := .object [
  ("openapi", .str "3.0.0"),
  ("paths", .object [("/nodes", .object [("get", .object [
    ("parameters", .list [.object [("$ref", .str "#/components/parameters/Like")]])])])]),
  ("components", .object [
    ("parameters", .object [("Like", .object [
      ("name", .str "like"), ("in", .str "query"),
      ("schema", .object [("type", .str "string")])])]),
    ("schemas", .object [("Node", linkedSchema (schemaNode "Node" []) [])])])]

/-- What is left of it: the parameter in its place, and one reference to `Node`. -/
def resolvedLikedNodes : Value := .object [
  ("openapi", .str "3.0.0"),
  ("paths", .object [("/nodes", .object [("get", .object [
    ("parameters", .list [.object [
      ("name", .str "like"), ("in", .str "query"),
      ("schema", .object [("type", .str "string")])]])])])]),
  ("components", .object [
    ("parameters", .object [("Like", .object [
      ("name", .str "like"), ("in", .str "query"),
      ("schema", .object [("type", .str "string")])])]),
    ("schemas", .object [("Node",
      linkedSchema (linkedSchema (schemaNode "Node" []) ["Node"]) [])])])]

theorem load_emittable_liked :
    resolvedLikedNodes.EveryReference StandsForSchema ∧
      (∀ schema, schema.PartOf resolvedLikedNodes → ∀ useDates inlineNamed,
        (Schema.resolve useDates schema inlineNamed).FailsOnly (· = .illShaped)) ∧
      ∀ api, Api.ofDocument resolvedLikedNodes = .ok api → ∀ useDates contracts,
        (ModelsFile.build useDates api.schemas contracts).result.FailsOnly (· = .illShaped) := by
  have loaded : (Document.load ⟨⟨[], [], []⟩, []⟩ (.given likedNodes) none).result =
      .ok resolvedLikedNodes := rfl
  have mentioned : ∀ reference, likedNodes.Mentions reference →
      reference = "#/components/parameters/Like" ∨ reference = schemaReference "Node" := by
    intro reference mentions
    have known : likedNodes.references =
        ["#/components/parameters/Like", schemaReference "Node"] := by decide
    simpa [known] using mem_references mentions
  have onlyLocal : OnlyLocal likedNodes := by
    intro reference mentions
    rcases mentioned reference mentions with rfl | rfl
    · exact ⟨"/components/parameters/Like", rfl⟩
    · exact isLocal_schemaReference (by decide)
  have flat : likedNodes.EveryMap fun entries =>
      (Entries.get? "$ref" entries).isSome → ∀ entry ∈ entries, ∃ a, entry.2 = .atom a := by
    simp [likedNodes, linkedSchema, schemaNode, Value.object, Value.everyMap_map_iff,
      Value.everyMap_list_iff, Value.everyMap_atom, Entries.get?]
  have named : ∀ entries name,
      ((Entries.get? "$ref" entries).isSome → ∀ entry ∈ entries, ∃ a, entry.2 = .atom a) →
      (Entries.get? "$ref" (entries ++ [(.str schemaNameKey, .str name)])).isSome →
        ∀ entry ∈ entries ++ [(Scalar.str schemaNameKey, Value.str name)],
          ∃ a, entry.2 = .atom a := by
    intro entries name flat refers entry member
    rw [Entries.get?_append] at refers
    rcases List.mem_append.mp member with old | new
    · exact flat (by simpa [Entries.get?, schemaNameKey] using refers) entry old
    · exact ⟨.str name, by rw [List.mem_singleton.mp new]⟩
  refine load_emittable rfl (fun here entries reference cut => ?_) loaded
  rcases mentioned reference (cut.visited.mentions onlyLocal ⟨entries, .refl, cut.refers⟩)
    with rfl | rfl
  · -- the parameter refers to nothing, so it is on no cycle
    obtain ⟨_, ⟨part, found, mentions⟩, -⟩ :=
      Relation.TransGen.head'_iff.mp (cut.cycle onlyLocal)
    cases found
    exact absurd (mem_references mentions) List.not_mem_nil
  · have atoms := cut.visited.everyMap onlyLocal named flat entries .refl (by rw [cut.refers]; rfl)
    refine (Value.everyMap_map_iff entries).mpr ⟨fun x refers => ?_, fun entry member => ?_⟩
    · rw [cut.refers] at refers
      cases refers
      exact ⟨"Node", rfl⟩
    · obtain ⟨a, same⟩ := atoms entry member
      rw [same]
      exact Value.everyMap_atom a

/-- A schema with one property. -/
def treeNode (next : Value) : Value := .object [
  ("type", .str "object"), ("properties", .object [("next", next)])]

/-- A reference to a schema that is no component schema. -/
def hiddenNode : Value := .object [("$ref", .str "#/definitions/Node")]

/-- A document with that schema, and with one component schema. -/
def hiddenDocument (node tree : Value) : Value := .object [
  ("openapi", .str "3.0.0"), ("paths", .object []),
  ("definitions", .object [("Node", node)]),
  ("components", .object [("schemas", .object [("Tree", tree)])])]

/-- Where something else is recursive, it is left as well: a document whose component schema
refers to a recursive schema elsewhere can be loaded, a reference that stands for no component
schema is left in it, and the models module is refused for that reference. -/
theorem load_not_emittable :
    ∃ v api,
      (Document.load ⟨⟨[], [], []⟩, []⟩
        (.given (hiddenDocument (treeNode hiddenNode) hiddenNode)) none).result = .ok v ∧
      ¬ v.EveryReference StandsForSchema ∧
      Api.ofDocument v = .ok api ∧ api.operations = [] ∧
      (ModelsFile.build false api.schemas []).result =
        .error (.of (.foreignReference "#/definitions/Node")) := by
  refine ⟨hiddenDocument (treeNode (treeNode hiddenNode)) (treeNode hiddenNode), _, rfl, ?_,
    rfl, rfl, rfl⟩
  intro every
  have next : Pointer.follow (treeNode hiddenNode) ["properties", "next"] = some hiddenNode := rfl
  have tree : Pointer.follow (hiddenDocument (treeNode (treeNode hiddenNode)) (treeNode hiddenNode))
      ["components", "schemas", "Tree"] = some (treeNode hiddenNode) := rfl
  obtain ⟨name, same⟩ := every _ ((follow_part next).trans (follow_part tree)) _ rfl
  have schema : isSchemaReference "#/definitions/Node" = true :=
    (isSchemaReference_iff _).mpr ⟨name, Scalar.str.inj (Value.atom.inj same)⟩
  exact absurd schema (by decide)

end ClientForge
