/-
# ClientForge.Proofs.Reference.Target -- what a reference leads to

What a reference leads to depends on the document that is resolved and on the documents of
the files, and not on the order in which these were read.  `Sources` holds both, and
`Sources.target?` follows a reference in them without any state; `target_eq_ok` says that a
resolver does the same, in all sources that know its documents.

A part that a reference leads to comes out of one of these documents, with a name at most
added to it, so whatever holds of all maps of the documents and survives naming holds of the
part (`target?_part`).
-/
import ClientForge.Proofs.Reference.Step

namespace ClientForge.Resolver

set_option autoImplicit false

open Files

/-- The documents that references are followed in. -/
structure Sources where
  root : Value
  workdir : Place
  document? : Place → Option Entries

namespace Sources

/-- The document of a reference, and the folder that its own references start from. -/
def documentOf? (sources : Sources) (address : String) (base : Path) : Option (Value × Path) :=
  if address = "" then some (sources.root, base)
  else
    let path := base.join (.ofText address)
    if path.hasNull then none
    else
      let place := path.place sources.workdir
      (sources.document? place).map fun entries => (.map entries, .ofPlace place.dropLast)

/-- What a reference leads to, and the folder that its own references start from. -/
def target? (sources : Sources) (reference : String) (base : Path) : Option (Value × Path) := do
  let (address, fragment) ← (Address.withoutFragment reference).toOption
  let (root, inner) ← sources.documentOf? address base
  let part ← (partAt root fragment).toOption
  return (tagged reference part, inner)

/-- The sources have the documents of a resolver. -/
structure Know (sources : Sources) (files : FileTable) (r : Resolver) : Prop where
  root : sources.root = r.document
  workdir : sources.workdir = files.workdir
  cache : ∀ place entries, r.cache.lookup place = some entries →
    sources.document? place = some entries

theorem Know.before {sources : Sources} {files : FileTable} {r s : Resolver}
    (know : sources.Know files s) (grown : Extends files r s) : sources.Know files r where
  root := know.root.trans grown.document
  workdir := know.workdir
  cache place entries known := know.cache place entries (grown.lookup known)

/-- The references being expanded are no documents. -/
theorem Know.setActive {sources : Sources} {files : FileTable} {r : Resolver}
    (know : sources.Know files r) (active : List String) :
    sources.Know files { r with active } :=
  ⟨know.root, know.workdir, know.cache⟩

/-- The documents that a resolver has by now. -/
def of (files : FileTable) (r : Resolver) : Sources where
  root := r.document
  workdir := files.workdir
  document? place := List.lookup place r.cache

theorem know_of (files : FileTable) (r : Resolver) : (of files r).Know files r :=
  ⟨rfl, rfl, fun _ _ known => known⟩

end Sources

/-! ## Running -/

theorem documentAt_extends (files : FileTable) (address : String) (base : Path)
    (r : Resolver) : Extends files r (documentAt files address base r).2 := by
  unfold documentAt
  split
  · exact .refl r
  · dsimp only
    split
    · exact .refl r
    · exact bind_extends (loadDocument_extends files (up_not_mem_place _ _) r)
        fun entries s _ => .refl s

theorem target_extends (files : FileTable) (reference : String) (base : Path)
    (r : Resolver) : Extends files r (target files reference base r).2 := by
  unfold target
  refine bind_extends (.refl r) fun cut s _ => ?_
  refine bind_extends (documentAt_extends files _ base s) fun found t _ => ?_
  exact bind_extends (.refl t) fun part u _ => .refl u

theorem documentAt_eq_ok {files : FileTable} {address : String} {base inner : Path}
    {r s : Resolver} {document : Value} {sources : Sources}
    (run : documentAt files address base r = (.ok (document, inner), s))
    (know : sources.Know files s) :
    sources.documentOf? address base = some (document, inner) := by
  unfold documentAt at run
  unfold Sources.documentOf?
  split at run
  · rename_i here
    cases run
    rw [if_pos here, know.root]
  · rename_i elsewhere
    rw [if_neg elsewhere]
    dsimp only at run ⊢
    split at run
    · cases run
    · rename_i named
      obtain ⟨entries, t, load, run⟩ := bind_eq_ok run
      cases run
      rw [if_neg named, know.workdir, know.cache _ _ (loadDocument_known load)]
      rfl

/-- A resolver follows a reference as all sources do that know its documents. -/
theorem target_eq_ok {files : FileTable} {reference : String} {base inner : Path}
    {r s : Resolver} {part : Value} {sources : Sources}
    (run : target files reference base r = (.ok (part, inner), s))
    (know : sources.Know files s) : sources.target? reference base = some (part, inner) := by
  unfold target at run
  obtain ⟨⟨address, fragment⟩, t, cut, run⟩ := bind_eq_ok run
  obtain ⟨⟨document, folder⟩, u, load, run⟩ := bind_eq_ok run
  obtain ⟨found, v, pick, run⟩ := bind_eq_ok run
  obtain ⟨split, rfl⟩ := lift_eq_ok cut
  obtain ⟨chosen, rfl⟩ := lift_eq_ok pick
  cases run
  simp [Sources.target?, split, documentAt_eq_ok load know, chosen, Except.toOption]

/-! ## Where a part comes from -/

theorem toOption_eq_some_iff {α : Type} {x : Attempt α} {a : α} :
    x.toOption = some a ↔ x = .ok a := by
  cases x <;> simp [Except.toOption]

theorem follow_part {v w : Value} {keys : List String} (found : Pointer.follow v keys = some w) :
    w.PartOf v := by
  induction keys generalizing v with
  | nil =>
      cases v <;> cases found <;> exact .refl
  | cons key rest ih =>
      cases v with
      | atom a => cases found
      | list items => cases found
      | map entries =>
          rw [Pointer.follow] at found
          split at found
          · rename_i inner here
            exact (ih found).trans (.of_get? here)
          · cases found

theorem partAt_part {document part : Value} {fragment : String}
    (found : partAt document fragment = .ok part) : part.PartOf document := by
  unfold partAt at found
  split at found
  · cases found
  · unfold Pointer.find at found
    split at found
    · cases found
      exact .refl
    · split at found
      · rename_i v inside
        cases found
        exact follow_part inside
      · cases found

/-- A name is an entry more, at the end of a map that has none. -/
theorem tagged_eq (reference : String) (v : Value) :
    tagged reference v = v ∨
      ∃ entries, v = .map entries ∧ isSchemaReference reference = true ∧
        Entries.get? schemaNameKey entries = none ∧
        tagged reference v =
          .map (entries ++ [(.str schemaNameKey, .str (nameOf reference))]) := by
  cases v with
  | atom a => exact Or.inl rfl
  | list items => exact Or.inl rfl
  | map entries =>
      rw [tagged]
      split
      · rename_i named
        rw [Bool.and_eq_true, Bool.not_eq_true', Entries.has, Option.isSome_eq_false_iff,
          Option.isNone_iff_eq_none] at named
        exact Or.inr ⟨entries, rfl, named.1, named.2, rfl⟩
      · exact Or.inl rfl

/-- A name does not change what is referred to. -/
theorem mentions_tagged {reference other : String} {v : Value}
    (mentions : (tagged reference v).Mentions other) : v.Mentions other := by
  rcases tagged_eq reference v with same | ⟨entries, rfl, -, -, same⟩
  · rwa [same] at mentions
  · rw [same] at mentions
    obtain ⟨inner, part, refers⟩ := mentions
    cases part with
    | refl =>
        refine ⟨entries, .refl, ?_⟩
        rw [Entries.get?_append] at refers
        have other : Entries.get? "$ref" [(Scalar.str schemaNameKey, Value.str (nameOf reference))]
            = none := by simp [Entries.get?, schemaNameKey]
        rwa [other, Option.or_none] at refers
    | entry member part =>
        rcases List.mem_append.mp member with old | new
        · exact ⟨inner, .entry old part, refers⟩
        · cases List.mem_singleton.mp new
          cases part

/-- The part that a reference leads to is a part of one of the documents, named. -/
theorem Sources.target?_part {sources : Sources} {reference : String} {base inner : Path}
    {part : Value} (found : sources.target? reference base = some (part, inner)) :
    ∃ document raw, part = tagged reference raw ∧ raw.PartOf document ∧
      (document = sources.root ∨
        ∃ place entries, sources.document? place = some entries ∧ document = .map entries) := by
  unfold Sources.target? at found
  simp only [Option.bind_eq_bind, Option.bind_eq_some_iff, Prod.exists] at found
  obtain ⟨address, fragment, -, document, folder, load, raw, pick, found⟩ := found
  cases found
  refine ⟨document, raw, rfl, ?_, ?_⟩
  · exact partAt_part (toOption_eq_some_iff.mp pick)
  · unfold Sources.documentOf? at load
    split at load
    · cases load
      exact Or.inl rfl
    · dsimp only at load
      split at load
      · cases load
      · obtain ⟨entries, known, same⟩ := Option.map_eq_some_iff.mp load
        cases same
        exact Or.inr ⟨_, entries, known, rfl⟩

/-! ## References into the document itself -/

/-- A reference that is a bare fragment. -/
def IsLocal (reference : String) : Prop :=
  ∃ fragment, Address.withoutFragment reference = .ok ("", fragment)

/-- The value refers to its own document only. -/
def OnlyLocal (v : Value) : Prop := ∀ reference, v.Mentions reference → IsLocal reference

/-- The part of a document that one of its own references leads to. -/
def localPart? (document : Value) (reference : String) : Option Value :=
  match Address.withoutFragment reference with
  | .ok ("", fragment) => (partAt document fragment).toOption
  | _ => none

theorem localPart?_eq_some_iff {document part : Value} {reference : String} :
    localPart? document reference = some part ↔
      ∃ fragment, Address.withoutFragment reference = .ok ("", fragment) ∧
        partAt document fragment = .ok part := by
  unfold localPart?
  split
  · rename_i fragment cut
    rw [toOption_eq_some_iff, cut]
    constructor
    · exact fun found => ⟨fragment, rfl, found⟩
    · rintro ⟨_, same, found⟩
      cases same
      exact found
  · rename_i other
    constructor
    · intro found
      cases found
    · rintro ⟨fragment, cut, -⟩
      exact absurd cut (other fragment)

theorem localPart?_part {document part : Value} {reference : String}
    (found : localPart? document reference = some part) : part.PartOf document := by
  obtain ⟨fragment, -, found⟩ := localPart?_eq_some_iff.mp found
  exact partAt_part found

/-- All sources follow a local reference in the document, and stay in the folder. -/
theorem target?_of_local {sources : Sources} {reference : String} {base inner : Path}
    {part : Value} (isLocal : IsLocal reference)
    (found : sources.target? reference base = some (part, inner)) :
    inner = base ∧ ∃ raw, localPart? sources.root reference = some raw ∧
      part = tagged reference raw := by
  obtain ⟨fragment, cut⟩ := isLocal
  simp only [Sources.target?, Option.bind_eq_bind, Option.bind_eq_some_iff, Prod.exists,
    toOption_eq_some_iff] at found
  obtain ⟨address, fragment', cut', document, folder, load, raw, pick, found⟩ := found
  cases cut.symm.trans cut'
  cases load
  cases found
  exact ⟨rfl, raw, localPart?_eq_some_iff.mpr ⟨fragment, cut, pick⟩, rfl⟩

/-- A resolver follows a local reference without reading anything. -/
theorem target_of_local {files : FileTable} {reference : String} {base : Path}
    {r : Resolver} {part : Value} (found : localPart? r.document reference = some part) :
    target files reference base r = (.ok (tagged reference part, base), r) := by
  obtain ⟨fragment, cut, pick⟩ := localPart?_eq_some_iff.mp found
  have here : documentAt files "" base r = (.ok (r.document, base), r) := rfl
  unfold target
  rw [cut]
  refine (bind_ok (lift_apply (.ok ("", fragment)) r) _).trans ?_
  refine (bind_ok here _).trans ?_
  dsimp only
  rw [pick]
  rfl

end ClientForge.Resolver
