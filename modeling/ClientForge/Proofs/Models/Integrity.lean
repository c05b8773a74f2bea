/-
# ClientForge.Proofs.Models.Integrity -- generated code refers to declared models only

A model is named in three places that do not know of each other: where a reference is
inlined, where one was left in place, and where the models module goes through the
component schemas.  In a document whose references are plain (`WellReferenced`) the three
agree, so every model that a contract or the models module itself refers to is declared
there, once (`models_declared`).

One name is out of reach.  A component schema called `$ref` makes the map of all component
schemas a reference itself, and is gone when that is inlined; a reference to it that was
left in place has nothing to stand for (`models_undeclared`).
-/
import ClientForge.Document
import ClientForge.Package
import ClientForge.Proofs.Contract.Imports
import ClientForge.Proofs.Models.File
import ClientForge.Proofs.Reference.Provenance
import ClientForge.Proofs.Reference.Termination

namespace ClientForge

set_option autoImplicit false

open Resolver

/-- A document of local references, those to component schemas with plain names, which does
not name any schema itself. -/
structure WellReferenced (document : Value) : Prop where
  onlyLocal : OnlyLocal document
  plain : ∀ reference, document.Mentions reference → isSchemaReference reference = true →
    ∃ name, reference = schemaReference name ∧ IsPlainName name
  unnamed : document.EveryMap fun entries => Entries.get? schemaNameKey entries = none
  distinct : document.DistinctKeys

/-- The references of a document, as they are written in it, decide whether it is well
referenced. -/
theorem wellReferenced_of {document : Value} (names others : List String)
    (known : ∀ reference ∈ document.references, reference ∈ names.map schemaReference ++ others)
    (plain : ∀ name ∈ names, IsPlainName name)
    (bare : ∀ reference ∈ others, IsLocal reference ∧ isSchemaReference reference = false)
    (unnamed : document.EveryMap fun entries => Entries.get? schemaNameKey entries = none)
    (distinct : document.DistinctKeys) : WellReferenced document := by
  refine ⟨fun reference mentions => ?_, fun reference mentions schema => ?_, unnamed, distinct⟩
  · rcases List.mem_append.mp (known reference (mem_references mentions)) with named | other
    · obtain ⟨name, member, rfl⟩ := List.mem_map.mp named
      exact isLocal_schemaReference (plain name member)
    · exact (bare reference other).1
  · rcases List.mem_append.mp (known reference (mem_references mentions)) with named | other
    · obtain ⟨name, member, rfl⟩ := List.mem_map.mp named
      exact ⟨name, rfl, plain name member⟩
    · rw [(bare reference other).2] at schema
      cases schema

/-- What generated code refers to: the imports of contracts, those of the types that they
declare, and those of the types in the models module. -/
inductive Refers (contracts : List Contract) (file : ModelsFile) (ref : ImportRef) : Prop
  | contract {c : Contract} : c ∈ contracts → ref ∈ c.imports → Refers contracts file ref
  | declaration {c : Contract} {d : Declaration} :
      c ∈ contracts → d ∈ c.declarations → ref ∈ d.imports → Refers contracts file ref
  | model {model : Model} {type : TypeExpr} :
      model ∈ file.models → type ∈ model.types → ref ∈ type.imports → Refers contracts file ref

/-! ## Names that come from the document -/

theorem load_eq_ok {world : World} {origin : Origin} {document v : Value}
    {base folder : Option Files.Path}
    (opened : Document.readOrigin world origin base = .ok (document, folder))
    (run : (Document.load world origin base).result = .ok v) :
    ∃ s, resolve world.files (.start document folder) = (.ok v, s) := by
  unfold Document.load at run
  rw [opened] at run
  obtain ⟨_, origin, run⟩ := Traced.bind_eq_ok run
  cases origin
  obtain ⟨version, -, run⟩ := Traced.bind_eq_ok run
  obtain ⟨_, -, run⟩ := Traced.bind_eq_ok run
  have resolved : (resolve world.files (.start document folder)).1 = .ok v := run
  exact ⟨_, Prod.ext resolved rfl⟩

/-- What a resolved document names is referred to in the document as it was. -/
theorem mentions_of_named {document v : Value} (well : WellReferenced document)
    (traceable : v.EveryMap (Traceable document)) {name : String}
    (named : Schema.NamedIn v name) : document.Mentions (schemaReference name) := by
  obtain ⟨entries, part, refers | tag⟩ := named
  · exact (traceable entries part).reference _ refers
  · obtain ⟨reference, mentions, schema, same⟩ :=
      (traceable entries part).name _ (Entries.mem_of_get? tag)
    obtain ⟨other, rfl, plain⟩ := well.plain reference mentions schema
    rw [nameOf_schemaReference plain] at same
    cases same
    exact mentions

/-- The three derivations of a name meet: whatever a resolved document names is the key of a
component schema in it, unless the key makes all of them a reference. -/
theorem exists_schema_of_named {files : Files.FileTable} {document v : Value}
    {base : Option Files.Path} {s : Resolver} {api : Api} (well : WellReferenced document)
    (reachable : ¬ document.Mentions (schemaReference "$ref"))
    (resolved : resolve files (.start document base) = (.ok v, s))
    (read : Api.ofDocument v = .ok api) {name : String} (named : Schema.NamedIn v name) :
    ∃ schema, (.str name, schema) ∈ api.schemas := by
  have mentions : document.Mentions (schemaReference name) :=
    mentions_of_named well (resolve_traceable resolved well.onlyLocal well.unnamed) named
  have other : name ≠ "$ref" := by
    rintro rfl
    exact reachable mentions
  obtain ⟨_, same, plain⟩ := well.plain _ mentions ((isSchemaReference_iff _).mpr ⟨name, rfl⟩)
  cases schemaReference_injective same
  obtain ⟨part, found⟩ := resolve_followed resolved rfl well.onlyLocal well.distinct mentions
  have found : Pointer.follow document ["components", "schemas", name] = some part :=
    (localPart?_schema plain document).symm.trans found
  obtain ⟨part', found'⟩ := resolve_follow resolved rfl well.distinct
    (by simpa using Ne.symm other) found
  exact ⟨part', Api.ofDocument_follow read found'⟩

/-! ## One declaration for each name -/

/-- A text that declares a type of the name. -/
def DeclaresType (name text : String) : Prop :=
  (∃ rest, text = "export interface " ++ name ++ " \x7b" ++ rest) ∨
    ∃ rest, text = "export type " ++ name ++ " = " ++ rest

theorem intercalate_cons (separator first : String) (rest : List String) :
    ∃ more, String.intercalate separator (first :: rest) = first ++ more := by
  refine ⟨String.intercalate separator ("" :: rest), ?_⟩
  rw [← String.intercalate_cons_append, String.append_empty]

theorem Model.render_declares (model : Model) : DeclaresType model.name model.render := by
  obtain ⟨name, members⟩ | ⟨name, type⟩ | d := model
  · obtain ⟨more, same⟩ := intercalate_cons "\n" ("export interface " ++ name ++ " \x7b")
      (interfaceLines name members).tail
    exact Or.inl ⟨more, same⟩
  · refine Or.inr ⟨type.render ++ ";", ?_⟩
    rw [← String.append_assoc]
    rfl
  · refine Or.inr ⟨d.definition ++ ";", ?_⟩
    rw [← String.append_assoc]
    rfl

/-- The models module is a text for each of its names that declares it. -/
theorem ModelsFile.render_declares (file : ModelsFile) :
    ∃ texts, file.render = String.intercalate "\n\n" texts ++ "\n" ∧
      List.Forall₂ DeclaresType file.names texts := by
  refine ⟨file.models.map Model.render, rfl, ?_⟩
  refine List.forall₂_map_left_iff.mpr (List.forall₂_map_right_iff.mpr ?_)
  exact List.forall₂_same.mpr fun model _ => model.render_declares

/-! ## Integrity -/

/-- **Generated code refers to declared models only.**  Where references are plain and none
is to a schema called `$ref`, the names of the models module are distinct, its text declares
each of them, and whatever the contracts of a document and the models module refer to is one
of them. -/
theorem models_declared {world : World} {document v : Value} {base : Option Files.Path}
    {api : Api} {config : Config} {contracts : List Contract} {useDates : Bool}
    {file : ModelsFile} (well : WellReferenced document)
    (reachable : ¬ document.Mentions (schemaReference "$ref"))
    (loaded : (Document.load world (.given document) base).result = .ok v)
    (read : Api.ofDocument v = .ok api)
    (built : ∀ c ∈ contracts, ∃ op ∈ api.operations, (config.contractFor op).result = .ok c)
    (run : (ModelsFile.build useDates api.schemas contracts).result = .ok file) :
    file.names.Nodup ∧
      (∃ texts, file.render = String.intercalate "\n\n" texts ++ "\n" ∧
        List.Forall₂ DeclaresType file.names texts) ∧
      ∀ ref, Refers contracts file ref → ref.specifier = none ∧ file.names.count ref.name = 1 := by
  obtain ⟨s, resolved⟩ := load_eq_ok rfl loaded
  obtain ⟨unique, described, schemas, added⟩ := ModelsFile.build_declares run
  obtain ⟨inSchemas, inOperations⟩ := Api.ofDocument_schemas read
  have once : ∀ name ∈ file.names, file.names.count name = 1 :=
    fun name member => unique.count.trans (if_pos member)
  have declared : ∀ name, Schema.NamedIn v name → Naming.pascal name ∈ file.names := by
    intro name named
    obtain ⟨schema, member⟩ := exists_schema_of_named well reachable resolved read named
    obtain ⟨_, key, there⟩ := schemas _ member
    cases key
    exact there
  have ofType : ∀ e : TypeExpr, (∀ name ∈ e.names, Schema.NamedIn v name) → ∀ ref ∈ e.imports,
      ref.specifier = none ∧ file.names.count ref.name = 1 := by
    intro e names ref member
    obtain ⟨name, inside, rfl⟩ := exists_import member
    exact ⟨rfl, once _ (declared name (names name inside))⟩
  have ofSchemas : ∀ op ∈ api.operations, ∀ ref, ReadFrom op.schemas ref →
      ref.specifier = none ∧ file.names.count ref.name = 1 := by
    rintro op among ref ⟨schema, member, dates, e, type, inside⟩
    refine ofType e (fun name here => ?_) ref inside
    have named := Schema.read_names type name here
    exact named.whole (inOperations op among schema member)
  have sourced : ∀ c ∈ contracts, ∃ op ∈ api.operations, c.Sourced op.schemas := by
    intro c member
    obtain ⟨op, among, build⟩ := built c member
    obtain ⟨o, -, build⟩ := Traced.bind_eq_ok build
    exact ⟨op, among, Operation.contract_sourced build⟩
  refine ⟨unique, file.render_declares, fun ref refers => ?_⟩
  cases refers with
  | @contract c member inside =>
      obtain ⟨op, among, from_⟩ := sourced c member
      rcases from_.imports inside with types | ⟨d, here, rfl⟩
      · exact ofSchemas op among ref types
      · exact ⟨rfl, once _ (added c member d here)⟩
  | @declaration c d member here inside =>
      obtain ⟨op, among, from_⟩ := sourced c member
      exact ofSchemas op among ref (from_.declarations d here ref inside)
  | @model model type member here inside =>
      refine ofType type (fun name within => ?_) ref inside
      obtain ⟨entry, among, named⟩ := described model member type here name within
      exact named.whole (inSchemas entry among)

/-- A document with a schema `Node` and an `Alias`, and with an operation that takes a
parameter and answers with a schema. -/
def nodeDocument (node other answered : Value) : Value := .object [
  ("openapi", .str "3.0.0"),
  ("paths", .object [("/nodes", .object [("get", .object [
    ("parameters", .list [.object [
      ("name", .str "like"), ("in", .str "query"),
      ("schema", .object [("type", .str "string")])]]),
    ("responses", .object [("200", .object [("content", .object [
      ("application/json", .object [("schema", answered)])])])])])])]),
  ("components", .object [("schemas", .object [("Node", node), ("Alias", other)])])]

/-- A schema with one property, and a name if there is one. -/
def linkedSchema (next : Value) (name : List String) : Value :=
  .object (("properties", .object [("next", next)]) ::
    name.map fun name => (schemaNameKey, .str name))

/-- `Node` is recursive, `Alias` is another name for it, and the operation answers with that. -/
def recursiveNodes : Value :=
  nodeDocument (linkedSchema (schemaNode "Node" []) []) (schemaNode "Node" [])
    (schemaNode "Alias" [])

/-- What is left of it: one reference in each of the places that `Node` was inlined to. -/
def resolvedNodes : Value :=
  nodeDocument (linkedSchema (linkedSchema (schemaNode "Node" []) ["Node"]) [])
    (linkedSchema (schemaNode "Node" []) ["Node"]) (linkedSchema (schemaNode "Node" []) ["Alias"])

theorem models_declared_nodes :
    (Document.load ⟨⟨[], [], []⟩, []⟩ (.given recursiveNodes) none).result = .ok resolvedNodes ∧
      ∃ api op c file, Api.ofDocument resolvedNodes = .ok api ∧ api.operations = [op] ∧
        (({} : Config).contractFor op).result = .ok c ∧
        (ModelsFile.build true api.schemas [c]).result = .ok file ∧
        ∀ ref, Refers [c] file ref → ref.specifier = none ∧ file.names.count ref.name = 1 := by
  have loaded : (Document.load ⟨⟨[], [], []⟩, []⟩ (.given recursiveNodes) none).result =
      .ok resolvedNodes := rfl
  have runs : ∃ api op c file, Api.ofDocument resolvedNodes = .ok api ∧ api.operations = [op] ∧
      (({} : Config).contractFor op).result = .ok c ∧
      (ModelsFile.build true api.schemas [c]).result = .ok file := ⟨_, _, _, _, rfl, rfl, rfl, rfl⟩
  obtain ⟨api, op, c, file, read, one, built, run⟩ := runs
  have well : WellReferenced recursiveNodes := by
    refine wellReferenced_of ["Node", "Alias"] [] (by decide) (by decide) (by simp) ?_ ?_
    · simp [recursiveNodes, nodeDocument, linkedSchema, schemaNode, Value.object,
        Value.everyMap_map_iff, Value.everyMap_list_iff, Value.everyMap_atom, Entries.get?,
        schemaNameKey]
    · simp [Value.DistinctKeys, recursiveNodes, nodeDocument, linkedSchema, schemaNode,
        Value.object, Value.everyMap_map_iff, Value.everyMap_list_iff, Value.everyMap_atom]
  have reachable : ¬ recursiveNodes.Mentions (schemaReference "$ref") :=
    fun mentions => absurd (mem_references mentions) (by decide)
  have contracts : ∀ other ∈ [c], ∃ op ∈ api.operations,
      (({} : Config).contractFor op).result = .ok other := by
    intro other member
    rw [List.mem_singleton.mp member]
    exact ⟨op, one ▸ List.mem_singleton_self op, built⟩
  exact ⟨loaded, api, op, c, file, read, one, built, run,
    (models_declared well reachable loaded read contracts run).2.2⟩

/-- A document with a component schema called `$ref`.  `Pet` leads to `Cat`, which refers to
itself, so `Cat` is left as it stands, with a reference to that schema in it. -/
def dollarDocument : Value := .object [
  ("openapi", .str "3.0.0"), ("paths", .object []), ("blank", .object []),
  ("components", .object [("schemas", .object [
    ("$ref", .str "#/blank"),
    ("Pet", schemaNode "Cat" []),
    ("Cat", schemaNode "Cat" [("type", .str "object"),
      ("properties", .object [("tag", schemaNode "$ref" [])])])])])]

/-- Without its condition on `$ref` the theorem fails: the models module of a well-referenced
document may refer to a model that it does not declare. -/
theorem models_undeclared :
    WellReferenced dollarDocument ∧ ∃ v api file,
      (Document.load ⟨⟨[], [], []⟩, []⟩ (.given dollarDocument) none).result = .ok v ∧
      Api.ofDocument v = .ok api ∧ api.operations = [] ∧
      (ModelsFile.build false api.schemas []).result = .ok file ∧
      ∃ ref, Refers [] file ref ∧ ref.specifier = none ∧ file.names.count ref.name = 0 := by
  constructor
  · refine wellReferenced_of ["Cat", "$ref"] ["#/blank"] (by decide) (by decide) ?_ ?_ ?_
    · intro reference member
      rw [List.mem_singleton.mp member]
      exact ⟨⟨"/blank", rfl⟩, by decide⟩
    · simp [dollarDocument, schemaNode, Value.object, Value.everyMap_map_iff,
        Value.everyMap_atom, Entries.get?, schemaNameKey]
    · simp [Value.DistinctKeys, dollarDocument, schemaNode, Value.object, Value.everyMap_map_iff,
        Value.everyMap_atom]
  · refine ⟨_, _, _, rfl, rfl, rfl, rfl, .model "Ref", ?_, rfl, by decide⟩
    exact .model List.mem_cons_self List.mem_cons_self (by decide)

end ClientForge
