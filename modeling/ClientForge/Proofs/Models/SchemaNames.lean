/-
# ClientForge.Proofs.Models.SchemaNames -- one name for a component schema

A reference to a component schema gives its name three times: the resolver tags what it inlines
with the last segment, the reader takes all that stands behind the start of a reference that
was left in place, and the models module takes the key of the schema.  For a plain name all
three are the name (`schema_named_once`).

Where a reference is met, it is left in place or inlined, and then it has the tag whatever it
leads to (`Expands.tagged_inv`): the tag is the last key of the part, so it is set on whatever
the part refers to in turn.  A part that is left as a reference is the one thing that a tag
does not name.

An escaped slash is read back in the key only, so the three differ (`schema_misnamed`).
-/
import ClientForge.Proofs.Models.Integrity
import ClientForge.Proofs.Types.Dereferencing

namespace ClientForge

set_option autoImplicit false

open Resolver

namespace Resolver

/-! ## Tags of what is inlined -/

section Tagged

variable {sources : Sources} {base : Files.Path} {active : List String} {name : String}
  {part entries : Entries} {w : Value}

/-- What a tagged part expands to has the tag, and is no reference unless the part is one. -/
theorem Expands.tagged_inv (plain : IsPlainName name)
    (unnamed : Entries.get? schemaNameKey part = none) (unique : (part.map Prod.fst).Nodup)
    (expands : Expands sources base active (tagged (schemaReference name) (.map part)) w) :
    ∃ fields, w = .map fields ∧ Entries.get? schemaNameKey fields = some (.str name) ∧
      (Entries.get? "$ref" part = none → Entries.get? "$ref" fields = none) := by
  rw [tagged_of_unnamed plain unnamed] at expands
  have tag : Entries.get? schemaNameKey (part ++ [(.str schemaNameKey, .str name)]) =
      some (.str name) := by
    rw [Entries.get?_append, unnamed]
    rfl
  have refersAlike : Entries.get? "$ref" (part ++ [(.str schemaNameKey, .str name)]) =
      Entries.get? "$ref" part := by
    rw [Entries.get?_append]
    exact Option.or_none
  cases expands with
  | map free keys each =>
      have pointwise := Entries.pointwise_iff.mpr ⟨keys, each⟩
      obtain ⟨_, found, ⟨⟩⟩ := pointwise.get?_left tag
      exact ⟨_, rfl, found, fun _ => pointwise.get?_none free⟩
  | active refers =>
      rw [refersAlike] at refers
      exact ⟨_, rfl, tag, fun free => by rw [free] at refers; cases refers⟩
  | alone refers _ single =>
      -- The tag is not a reference, so the part cannot be the one entry.
      have empty : part = [] := List.length_eq_zero_iff.mp (by simpa using single)
      rw [refersAlike, empty] at refers
      cases refers
  | merged refers _ _ _ _ keys each =>
      have keyed : ((part ++ [(Scalar.str schemaNameKey, Value.str name)]).map Prod.fst).Nodup := by
        rw [List.map_append]
        refine List.nodup_append.mpr ⟨unique, by simp, ?_⟩
        rintro key old _ new rfl
        obtain ⟨entry, member, rfl⟩ := List.mem_map.mp old
        exact (Entries.get?_eq_none_iff _ _).mp unnamed entry member (by simpa using new)
      have pointwise := Entries.pointwise_iff.mpr ⟨keys, each⟩
      rw [← get?_siblings (by decide)] at tag
      obtain ⟨_, found, ⟨⟩⟩ := pointwise.get?_left tag
      refine ⟨_, rfl, ?_, fun free => ?_⟩
      · rw [Entries.get?_putAll (keys ▸ nodup_siblings keyed), found]
        rfl
      · rw [refersAlike, free] at refers
        cases refers

/-- What a reference to a component schema expands to: it is left in place, or the tagged part
expands in its place, with what stands next to the reference set on it. -/
theorem Expands.reference_cases {target : Value} (plain : IsPlainName name)
    (found : localPart? sources.root (schemaReference name) = some target)
    (refers : Entries.get? "$ref" entries = some (.str (schemaReference name)))
    (expands : Expands sources base active (.map entries) w) :
    schemaReference name ∈ active ∧ w = .map entries ∨
      schemaReference name ∉ active ∧ ∃ inner v,
        Expands sources inner (schemaReference name :: active)
          (tagged (schemaReference name) target) v ∧
        (w = v ∨ ∃ fields beside, v = .map fields ∧ w = .map (Entries.putAll fields beside) ∧
          Entries.Pointwise (Expands sources base active) (siblings entries) beside) := by
  have leads : ∀ {inner : Files.Path} {v : Value},
      sources.target? (schemaReference name) base = some (v, inner) →
        v = tagged (schemaReference name) target := by
    intro inner v there
    obtain ⟨-, raw, here, rfl⟩ := target?_of_local (isLocal_schemaReference plain) there
    obtain rfl := Option.some.inj (found.symm.trans here)
    rfl
  cases expands with
  | map free => exact absurd (free.symm.trans refers) nofun
  | active refers' active =>
      cases refers.symm.trans refers'
      exact Or.inl ⟨active, rfl⟩
  | alone refers' inactive _ there inner =>
      cases refers.symm.trans refers'
      exact Or.inr ⟨inactive, _, w, leads there ▸ inner, Or.inl rfl⟩
  | merged refers' inactive _ there inner keys each =>
      cases refers.symm.trans refers'
      exact Or.inr ⟨inactive, _, _, leads there ▸ inner,
        Or.inr ⟨_, _, rfl, rfl, Entries.pointwise_iff.mpr ⟨keys, each⟩⟩⟩

/-- What a reference to a component schema expands to, without a name next to it: it is left in
place, or it has the tag. -/
theorem Expands.reference_inv (plain : IsPlainName name)
    (found : localPart? sources.root (schemaReference name) = some (.map part))
    (unnamed : Entries.get? schemaNameKey part = none) (unique : (part.map Prod.fst).Nodup)
    (refers : Entries.get? "$ref" entries = some (.str (schemaReference name)))
    (beside : Entries.get? schemaNameKey entries = none) (keyed : (entries.map Prod.fst).Nodup)
    (expands : Expands sources base active (.map entries) w) :
    schemaReference name ∈ active ∧ w = .map entries ∨
      schemaReference name ∉ active ∧ ∃ fields, w = .map fields ∧
        Entries.get? schemaNameKey fields = some (.str name) ∧
        (Entries.get? "$ref" part = none → Entries.get? "$ref" fields = none) := by
  obtain left | ⟨inactive, inner, v, expands, same⟩ := expands.reference_cases plain found refers
  · exact Or.inl left
  obtain ⟨fields, rfl, tag, free⟩ := expands.tagged_inv plain unnamed unique
  obtain rfl | ⟨fields', others, ⟨⟩, rfl, pointwise⟩ := same
  · exact Or.inr ⟨inactive, fields, rfl, tag, free⟩
  · obtain ⟨keys, -⟩ := Entries.pointwise_iff.mp pointwise
    have nameless := pointwise.get?_none ((get?_siblings (by decide) entries).trans beside)
    refine Or.inr ⟨inactive, _, rfl, ?_, fun notReference => ?_⟩
    · rw [Entries.get?_putAll (keys ▸ nodup_siblings keyed), nameless, tag]
      rfl
    · rw [Entries.get?_putAll_of_none (get?_beside keys), free notReference]

/-- The key `$ref` of a map that expands has a text. -/
theorem Expands.reference_text {v : Value} (expands : Expands sources base active (.map entries) w)
    (refers : Entries.get? "$ref" entries = some v) : ∃ reference, v = .str reference := by
  cases expands with
  | map free => exact absurd (free.symm.trans refers) nofun
  | active refers' => exact ⟨_, Option.some.inj (refers.symm.trans refers')⟩
  | alone refers' => exact ⟨_, Option.some.inj (refers.symm.trans refers')⟩
  | merged refers' => exact ⟨_, Option.some.inj (refers.symm.trans refers')⟩

end Tagged

end Resolver

/-! ## The type of a node -/

namespace Schema

/-- A node is written as the type of this name, or as that type or null, and imports it. -/
def GoesBy (v : Value) (name : String) : Prop :=
  ∀ useDates, ∃ t, resolve useDates v false = .ok t ∧ t.imports = [.model name] ∧
    (t.text = name ∨ t.text = name ++ " | null")

theorem goesBy_of_read {entries : Entries} {name : String}
    (read : ∀ useDates, read useDates false (.map entries) =
      .ok (withNull entries (.named name))) :
    GoesBy (.map entries) (Naming.pascal name) := by
  intro useDates
  refine ⟨(withNull entries (.named name)).resolved, ?_, ?_, ?_⟩
  · rw [resolve, read]
    rfl
  · unfold withNull
    split
    · rfl
    · rfl
  · unfold withNull TypeExpr.resolved
    split
    · rw [TypeExpr.render, TypeExpr.nullableText]
      split
      · exact Or.inl rfl
      · exact Or.inr rfl
    · exact Or.inl rfl

end Schema

/-! ## Declared names -/

theorem Pointer.follow_concat {v w : Value} {keys : List String} {key : String}
    (found : follow v (keys ++ [key]) = some w) :
    ∃ entries, follow v keys = some (.map entries) ∧ Entries.get? key entries = some w := by
  induction keys generalizing v with
  | nil =>
      cases v with
      | atom a => cases found
      | list items => cases found
      | map entries =>
          rw [List.nil_append, follow] at found
          split at found
          · rename_i inner here
            obtain rfl : inner = w := by cases inner <;> exact Option.some.inj found
            exact ⟨entries, rfl, here⟩
          · cases found
  | cons first rest ih =>
      cases v with
      | atom a => cases found
      | list items => cases found
      | map entries =>
          rw [List.cons_append, follow] at found
          split at found
          · rename_i inner here
            rw [follow, here]
            exact ih found
          · cases found

/-- The models module of a document declares a name for every component schema that its
references can lead to. -/
theorem component_declared {world : World} {origin : Origin} {document v : Value}
    {base folder : Option Files.Path} {name : String} {part : Entries} {api : Api}
    {contracts : List Contract} {useDates : Bool} {file : ModelsFile} (plain : IsPlainName name)
    (opened : Document.readOrigin world origin base = .ok (document, folder))
    (distinct : document.DistinctKeys)
    (found : localPart? document (schemaReference name) = some (.map part))
    (loaded : (Document.load world origin base).result = .ok v)
    (read : Api.ofDocument v = .ok api)
    (run : (ModelsFile.build useDates api.schemas contracts).result = .ok file) :
    Naming.pascal name ∈ file.names := by
  obtain ⟨s, resolved⟩ := load_eq_ok opened loaded
  rw [localPart?_schema plain] at found
  have other : name ≠ "$ref" := by
    -- Otherwise the component schemas are a reference, and one whose key has no text.
    rintro rfl
    obtain ⟨schemas, there, refers⟩ :=
      Pointer.follow_concat
        (show Pointer.follow document (["components", "schemas"] ++ ["$ref"]) = _ from found)
    obtain ⟨sources, root, expands⟩ := resolve_eq_ok resolved
    obtain ⟨schemas', -, expands⟩ := Expands.follow expands distinct (by decide) there
    obtain ⟨reference, text⟩ := expands.reference_text refers
    cases text
  obtain ⟨part', found'⟩ :=
    resolve_follow resolved rfl distinct (by simpa using Ne.symm other) found
  obtain ⟨_, key, declared⟩ :=
    (ModelsFile.build_declares run).2.2.1 _ (Api.ofDocument_follow read found')
  cases key
  exact declared

/-- **One name for a component schema.**  Let a reference to a component schema with a plain
name lead to an object of the document that has no name of its own.

If the document is loaded, read and its models module is built, then the module declares the
name.  And wherever the reference is met, in the document or in a file, with other keys next to
it or alone, the node is written as the type of that name: where the reference is being expanded
and is left in place, and where it is inlined, if no reference is left instead.  That can only
happen where the object is itself a reference. -/
theorem schema_named_once {world : World} {origin : Origin} {document : Value}
    {base folder : Option Files.Path} {name : String} {part : Entries} (plain : IsPlainName name)
    (given : name ≠ "") (opened : Document.readOrigin world origin base = .ok (document, folder))
    (distinct : document.DistinctKeys)
    (found : localPart? document (schemaReference name) = some (.map part))
    (unnamed : Entries.get? schemaNameKey part = none) :
    (∀ v api contracts useDates file, (Document.load world origin base).result = .ok v →
      Api.ofDocument v = .ok api →
      (ModelsFile.build useDates api.schemas contracts).result = .ok file →
        Naming.pascal name ∈ file.names) ∧
    ∀ files depth here r s entries w, r.document = document →
      Entries.get? "$ref" entries = some (.str (schemaReference name)) →
      Entries.get? schemaNameKey entries = none → (entries.map Prod.fst).Nodup →
      expand (openReference files depth) here (.map entries) r = (.ok w, s) →
        (schemaReference name ∈ r.active →
          w = .map entries ∧ Schema.GoesBy w (Naming.pascal name)) ∧
        (schemaReference name ∉ r.active → ∃ fields, w = .map fields ∧
          (Entries.get? "$ref" part = none → Entries.get? "$ref" fields = none) ∧
          (Entries.get? "$ref" fields = none → Schema.GoesBy w (Naming.pascal name))) := by
  refine ⟨fun v api contracts useDates file loaded read run => ?_, ?_⟩
  · exact component_declared plain opened distinct found loaded read run
  intro files depth here r s entries w same refers beside keyed run
  subst same
  have grown : Extends files r s :=
    (expand_extends (openReference_extends files depth) here _ r).of_run run
  have expands := expand_eq_ok run (Sources.know_of files s)
  have unique := ((Value.everyMap_map_iff part).mp (distinct.part (localPart?_part found))).1
  have found : localPart? (Sources.of files s).root (schemaReference name) = some (.map part) := by
    rw [← found]
    exact congrArg (localPart? · _) grown.document
  rcases expands.reference_inv plain found unnamed unique refers beside keyed with
    ⟨active, rfl⟩ | ⟨inactive, fields, rfl, tag, free⟩
  · refine ⟨fun _ => ⟨rfl, ?_⟩, fun inactive => absurd active inactive⟩
    exact Schema.goesBy_of_read fun useDates => Schema.read_reference refers
  · refine ⟨fun active => absurd active inactive, fun _ => ⟨fields, rfl, free, fun none => ?_⟩⟩
    exact Schema.goesBy_of_read fun useDates => Schema.read_tagged none tag given

theorem schema_named_once_nodes :
    (∃ api file, Api.ofDocument resolvedNodes = .ok api ∧
      (ModelsFile.build true api.schemas []).result = .ok file ∧ "Node" ∈ file.names) ∧
    (∃ w s, expand (openReference ⟨[], [], []⟩ 2) ⟨false, []⟩ (schemaNode "Node" [])
        (.start recursiveNodes none) = (.ok w, s) ∧ Schema.GoesBy w "Node") ∧
    Schema.GoesBy (schemaNode "Node" [("nullable", .bool true)]) "Node" := by
  have loaded : (Document.load ⟨⟨[], [], []⟩, []⟩ (.given recursiveNodes) none).result =
      .ok resolvedNodes := rfl
  have distinct : recursiveNodes.DistinctKeys := by
    simp [Value.DistinctKeys, recursiveNodes, nodeDocument, linkedSchema, schemaNode,
      Value.object, Value.everyMap_map_iff, Value.everyMap_list_iff, Value.everyMap_atom]
  have opened : Document.readOrigin ⟨⟨[], [], []⟩, []⟩ (.given recursiveNodes) none =
      .ok (recursiveNodes, none) := rfl
  have found : localPart? recursiveNodes (schemaReference "Node") =
      some (.map [(.str "properties", .object [("next", schemaNode "Node" [])])]) := rfl
  obtain ⟨declares, named⟩ :=
    schema_named_once (by decide) (by decide) opened distinct found rfl
  have runs : ∃ api file, Api.ofDocument resolvedNodes = .ok api ∧
      (ModelsFile.build true api.schemas []).result = .ok file := ⟨_, _, rfl, rfl⟩
  obtain ⟨api, file, read, run⟩ := runs
  have inlines : ∃ w s, expand (openReference ⟨[], [], []⟩ 2) ⟨false, []⟩ (schemaNode "Node" [])
      (.start recursiveNodes none) = (.ok w, s) := ⟨_, _, rfl⟩
  obtain ⟨w, s, inlined⟩ := inlines
  refine ⟨⟨api, file, read, run, declares _ _ _ _ _ loaded read run⟩, ⟨w, s, inlined, ?_⟩, ?_⟩
  · obtain ⟨-, opened⟩ := named _ _ _ _ _ _ _ rfl rfl rfl (by decide) inlined
    obtain ⟨fields, rfl, free, goes⟩ := opened (by decide)
    exact goes (free rfl)
  · have left : expand (openReference ⟨[], [], []⟩ 0) ⟨false, []⟩
        (schemaNode "Node" [("nullable", .bool true)])
        { Resolver.start recursiveNodes none with active := [schemaReference "Node"] } =
          (.ok (schemaNode "Node" [("nullable", .bool true)]), _) := rfl
    exact ((named _ _ _ _ _ _ _ rfl rfl rfl (by decide) left).1 (by decide)).2

/-- A schema with a slash in its name, which refers to itself. -/
def escapedDocument : Value := .object [
  ("openapi", .str "3.0.0"), ("paths", .object []),
  ("components", .object [("schemas", .object [("a/b", .object [
    ("type", .str "object"),
    ("properties", .object [("next", schemaNode "a~1b" [])])])])])]

/-- A reference with an escaped slash leads to a schema, and the type that it is written as is
not declared. -/
theorem schema_misnamed :
    ∃ part v api file, localPart? escapedDocument (schemaReference "a~1b") = some (.map part) ∧
      Entries.get? schemaNameKey part = none ∧
      (Document.load ⟨⟨[], [], []⟩, []⟩ (.given escapedDocument) none).result = .ok v ∧
      Api.ofDocument v = .ok api ∧ (ModelsFile.build false api.schemas []).result = .ok file ∧
      file.names = ["AB"] ∧ Refers [] file (.model "A1b") := by
  refine ⟨_, _, _, _, rfl, rfl, rfl, rfl, rfl, by decide, ?_⟩
  exact .model List.mem_cons_self List.mem_cons_self (by decide)

end ClientForge
