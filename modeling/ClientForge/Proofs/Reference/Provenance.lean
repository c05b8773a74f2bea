/-
# ClientForge.Proofs.Reference.Provenance -- where the names in a resolved document come from

Resolving leaves two kinds of marks in a document: references of recursive schemas that were
left in place, and the names of those that were inlined.  Both are traced to references of
the document as it was (`Traceable`), and all of these have been followed, because the walk
starts with nothing being expanded and so comes by every map of the document
(`Expands.followed`).

What a pointer finds in the document before, it finds afterwards, unless it passes through
the key `$ref` (`Expands.follow`).
-/
import ClientForge.Proofs.Reference.Expansion

namespace ClientForge.Resolver

set_option autoImplicit false

open Files

/-! ## Every reference has been followed -/

section Start

variable {sources : Sources} {base : Path}

/-- A walk that starts with nothing being expanded follows all references of its value. -/
theorem Expands.followed {v w : Value} {active : List String}
    (expands : Expands sources base active v w) (start : active = []) (distinct : v.DistinctKeys)
    {reference : String} (mentions : v.Mentions reference) :
    ∃ folder target, sources.target? reference folder = some target := by
  obtain ⟨inner, part, refers⟩ := mentions
  induction expands with
  | atom a => cases part
  | list length each ih =>
      cases part with
      | item member part =>
          obtain ⟨w, zipped⟩ := exists_mem_zip length member
          exact ih _ w zipped start (distinct.part (.item member .refl)) part
  | @map _ _ entries entries' none keys each ih =>
      cases part with
      | refl => simp [none] at refers
      | entry member part =>
          have length : entries.length = entries'.length := by simpa using congrArg List.length keys
          obtain ⟨w, zipped⟩ := exists_mem_zip length member
          exact ih _ w zipped start (distinct.part (.entry member .refl)) part
  | active refers' active =>
      rw [start] at active
      cases active
  | @alone base _ _ entries reference' _ _ refers' _ single found _ _ =>
      obtain ⟨entry, rfl⟩ := List.length_eq_one_iff.mp single
      have here := List.mem_singleton.mp (Entries.mem_of_get? refers')
      cases part with
      | refl =>
          rw [refers'] at refers
          cases refers
          exact ⟨_, _, found⟩
      | entry member part =>
          rw [List.mem_singleton, ← here] at member
          cases member
          cases part
  | @merged base _ _ entries _ beside reference' _ refers' _ _ found _ keys _ _ each =>
      cases part with
      | refl =>
          rw [refers'] at refers
          cases refers
          exact ⟨_, _, found⟩
      | @entry k v _ member part =>
          by_cases same : k = .str "$ref"
          · have unique := ((Value.everyMap_map_iff entries).mp distinct).1
            rw [same] at member
            rw [Entries.get?_of_mem unique member] at refers'
            cases refers'
            cases part
          · have kept : (k, v) ∈ siblings entries :=
              List.mem_filter.mpr ⟨member, by simpa using same⟩
            have length : (siblings entries).length = beside.length := by
              simpa using congrArg List.length keys
            obtain ⟨w, zipped⟩ := exists_mem_zip length kept
            exact each _ w zipped start (distinct.part (.entry member .refl)) part

/-- What stands under a key of a map is expanded on its own. -/
theorem Expands.get? {entries : Entries} {v w : Value} {key : String}
    (expands : Expands sources base [] (.map entries) w)
    (unique : (entries.map Prod.fst).Nodup) (other : key ≠ "$ref")
    (found : Entries.get? key entries = some v) :
    ∃ entries' v', w = .map entries' ∧ Entries.get? key entries' = some v' ∧
      Expands sources base [] v v' := by
  cases expands with
  | map none keys each =>
      have pointwise := Entries.pointwise_iff.mpr ⟨keys, each⟩
      obtain ⟨v', found', expands⟩ := pointwise.get?_left found
      exact ⟨_, v', rfl, found', expands⟩
  | active _ active => cases active
  | alone refers _ single =>
      obtain ⟨entry, rfl⟩ := List.length_eq_one_iff.mp single
      have first := List.mem_singleton.mp (Entries.mem_of_get? refers)
      have second := List.mem_singleton.mp (Entries.mem_of_get? found)
      rw [← first] at second
      cases second
      exact absurd rfl other
  | merged refers _ _ _ _ keys each =>
      have pointwise := Entries.pointwise_iff.mpr ⟨keys, each⟩
      rw [← get?_siblings other] at found
      obtain ⟨v', found', expands⟩ := pointwise.get?_left found
      refine ⟨_, v', rfl, ?_, expands⟩
      rw [Entries.get?_putAll (keys ▸ nodup_siblings unique), found']
      rfl

/-- A pointer still finds something where it found something before: what that expands to. -/
theorem Expands.follow {v w part : Value} {keys : List String}
    (expands : Expands sources base [] v w) (distinct : v.DistinctKeys)
    (others : "$ref" ∉ keys) (found : Pointer.follow v keys = some part) :
    ∃ part', Pointer.follow w keys = some part' ∧ Expands sources base [] part part' := by
  induction keys generalizing v w with
  | nil =>
      obtain rfl : v = part := by cases v <;> exact Option.some.inj found
      exact ⟨w, by cases w <;> rfl, expands⟩
  | cons key rest ih =>
      cases v with
      | atom a => cases found
      | list items => cases found
      | map entries =>
          rw [List.mem_cons, not_or] at others
          have unique := ((Value.everyMap_map_iff entries).mp distinct).1
          rw [Pointer.follow] at found
          split at found
          · rename_i inner here
            obtain ⟨entries', inner', rfl, here', expands⟩ :=
              expands.get? unique (Ne.symm others.1) here
            rw [Pointer.follow, here']
            exact ih expands (distinct.get? here) others.2 found
          · cases found

end Start

/-! ## Marks of references -/

/-- What a map refers to and what it is named after are references of the document. -/
structure Traceable (document : Value) (entries : Entries) : Prop where
  reference : ∀ reference, Entries.get? "$ref" entries = some (.str reference) →
    document.Mentions reference
  name : ∀ v, (.str schemaNameKey, v) ∈ entries → ∃ reference, document.Mentions reference ∧
    isSchemaReference reference = true ∧ v = .str (nameOf reference)

/-- A document without names is traced to itself. -/
theorem traceable_self {document : Value}
    (unnamed : document.EveryMap fun entries => Entries.get? schemaNameKey entries = none) :
    document.EveryMap (Traceable document) := by
  intro entries part
  refine ⟨fun reference refers => ⟨entries, part, refers⟩, fun v member => ?_⟩
  exact absurd rfl ((Entries.get?_eq_none_iff _ _).mp (unnamed entries part) _ member)

theorem traceable_tagged {document v : Value} {reference : String}
    (traceable : v.EveryMap (Traceable document)) (mentions : document.Mentions reference) :
    (tagged reference v).EveryMap (Traceable document) := by
  rcases tagged_eq reference v with same | ⟨entries, rfl, schema, -, same⟩
  · rwa [same]
  · obtain ⟨here, within⟩ := (Value.everyMap_map_iff entries).mp traceable
    rw [same]
    refine (Value.everyMap_map_iff _).mpr ⟨⟨fun other refers => ?_, fun v member => ?_⟩,
      fun entry member => ?_⟩
    · have alone : Entries.get? "$ref" [(Scalar.str schemaNameKey, Value.str (nameOf reference))]
          = none := rfl
      rw [Entries.get?_append, alone, Option.or_none] at refers
      exact here.reference other refers
    · rcases List.mem_append.mp member with old | new
      · exact here.name v old
      · cases List.mem_singleton.mp new
        exact ⟨reference, mentions, schema, rfl⟩
    · rcases List.mem_append.mp member with old | new
      · exact within entry old
      · rw [List.mem_singleton.mp new]
        exact Value.everyMap_atom _

section Marks

variable {sources : Sources} {base : Path} {active : List String}

/-- Values that expand to traceable ones: the maps in them are, and so are the names. -/
def KeepsMarks (sources : Sources) (v w : Value) : Prop :=
  (v.EveryMap (Traceable sources.root) → w.EveryMap (Traceable sources.root)) ∧
    ∀ name, v = .str name → w = .str name

/-- Expanded entries under the same keys are traceable if the entries were. -/
theorem traceable_right {entries entries' : Entries}
    (pointwise : Entries.Pointwise (KeepsMarks sources) entries entries')
    (within : ∀ entry ∈ entries, entry.2.EveryMap (Traceable sources.root))
    (names : ∀ v, (.str schemaNameKey, v) ∈ entries → ∃ reference,
      sources.root.Mentions reference ∧ isSchemaReference reference = true ∧
        v = .str (nameOf reference)) :
    (∀ entry ∈ entries', entry.2.EveryMap (Traceable sources.root)) ∧
      ∀ v, (.str schemaNameKey, v) ∈ entries' → ∃ reference,
        sources.root.Mentions reference ∧ isSchemaReference reference = true ∧
          v = .str (nameOf reference) := by
  refine ⟨fun entry' member => ?_, fun v member => ?_⟩
  · obtain ⟨entry, there, -, keeps⟩ := pointwise.right member
    exact keeps.1 (within entry there)
  · obtain ⟨⟨k, w⟩, there, same, keeps⟩ := pointwise.right member
    cases same
    obtain ⟨reference, mentions, schema, named⟩ := names w there
    exact ⟨reference, mentions, schema, keeps.2 _ named⟩

/-- Expanding keeps all marks traceable. -/
theorem Expands.keepsMarks {v w : Value} (expands : Expands sources base active v w)
    (onlyLocal : OnlyLocal sources.root)
    (root : sources.root.EveryMap (Traceable sources.root)) : KeepsMarks sources v w := by
  induction expands with
  | atom a => exact ⟨id, fun _ => id⟩
  | list length _ ih =>
      refine ⟨fun traceable => ?_, fun _ same => by cases same⟩
      have within := (Value.everyMap_list_iff _).mp traceable
      have each := List.forall₂_iff_zip (R := KeepsMarks sources) |>.mpr
        ⟨length, fun member => ih _ _ member⟩
      refine (Value.everyMap_list_iff _).mpr fun w member => ?_
      obtain ⟨v, there, keeps⟩ := exists_of_mem_right each member
      exact keeps.1 (within v there)
  | map none keys _ ih =>
      refine ⟨fun traceable => ?_, fun _ same => by cases same⟩
      obtain ⟨here, within⟩ := (Value.everyMap_map_iff _).mp traceable
      have pointwise := Entries.pointwise_iff.mpr ⟨keys, ih⟩
      obtain ⟨within', names⟩ := traceable_right pointwise within here.name
      refine (Value.everyMap_map_iff _).mpr ⟨⟨fun reference refers => ?_, names⟩, within'⟩
      rw [pointwise.get?_none none] at refers
      cases refers
  | active => exact ⟨id, fun _ same => by cases same⟩
  | alone refers _ _ found _ ih =>
      refine ⟨fun traceable => ?_, fun _ same => by cases same⟩
      obtain ⟨here, -⟩ := (Value.everyMap_map_iff _).mp traceable
      have mentions := here.reference _ refers
      obtain ⟨rfl, raw, there, rfl⟩ := target?_of_local (onlyLocal _ mentions) found
      exact ih.1 (traceable_tagged (root.part (localPart?_part there)) mentions)
  | @merged _ _ _ entries fields beside _ _ refers _ _ found _ keys _ ih each =>
      refine ⟨fun traceable => ?_, fun _ same => by cases same⟩
      obtain ⟨here, within⟩ := (Value.everyMap_map_iff _).mp traceable
      have mentions := here.reference _ refers
      obtain ⟨rfl, raw, there, rfl⟩ := target?_of_local (onlyLocal _ mentions) found
      have opened := ih.1 (traceable_tagged (root.part (localPart?_part there)) mentions)
      obtain ⟨target, old⟩ := (Value.everyMap_map_iff _).mp opened
      obtain ⟨new, names⟩ := traceable_right (Entries.pointwise_iff.mpr ⟨keys, each⟩)
        (fun entry member => within entry (mem_of_mem_siblings member))
        (fun v member => here.name v (mem_of_mem_siblings member))
      refine (Value.everyMap_map_iff _).mpr ⟨⟨fun reference refers => ?_, fun v member => ?_⟩,
        Value.everyMap_putAll old new⟩
      · rw [Entries.get?_putAll_of_none (get?_beside keys)] at refers
        exact target.reference reference refers
      · rcases Entries.mem_putAll member with kept | ⟨⟨k, w⟩, written, same, key⟩
        · exact target.name v kept
        · obtain rfl : k = .str schemaNameKey := by
            rcases key with rfl | same
            · rfl
            · exact (Scalar.str_same _ _).mp same
          cases same
          exact names _ written

end Marks

/-! ## Resolved documents -/

section Resolved

variable {files : FileTable} {r s : Resolver} {w : Value}

theorem resolve_followed (run : resolve files r = (.ok w, s)) (idle : r.active = [])
    (onlyLocal : OnlyLocal r.document) (distinct : r.document.DistinctKeys) {reference : String}
    (mentions : r.document.Mentions reference) :
    ∃ part, localPart? r.document reference = some part := by
  obtain ⟨sources, root, expands⟩ := resolve_eq_ok run
  obtain ⟨folder, ⟨target, inner⟩, found⟩ := expands.followed idle distinct mentions
  obtain ⟨-, part, here, -⟩ := target?_of_local (onlyLocal reference mentions) found
  exact ⟨part, root ▸ here⟩

theorem resolve_traceable (run : resolve files r = (.ok w, s)) (onlyLocal : OnlyLocal r.document)
    (unnamed : r.document.EveryMap fun entries => Entries.get? schemaNameKey entries = none) :
    w.EveryMap (Traceable r.document) := by
  obtain ⟨sources, root, expands⟩ := resolve_eq_ok run
  have self := traceable_self unnamed
  rw [← root] at onlyLocal self expands ⊢
  exact (expands.keepsMarks onlyLocal self).1 self

theorem resolve_follow (run : resolve files r = (.ok w, s)) (idle : r.active = [])
    (distinct : r.document.DistinctKeys) {keys : List String} {part : Value}
    (others : "$ref" ∉ keys) (found : Pointer.follow r.document keys = some part) :
    ∃ part', Pointer.follow w keys = some part' := by
  obtain ⟨sources, -, expands⟩ := resolve_eq_ok run
  rw [idle] at expands
  obtain ⟨part', found', -⟩ := expands.follow distinct others found
  exact ⟨part', found'⟩

end Resolved

end ClientForge.Resolver
