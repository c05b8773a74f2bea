/-
# ClientForge.Proofs.Reference.Expansion -- expansion as a relation

`Expands sources base active v w` says that `v`, whose relative references start from `base`,
expands to `w` while the references in `active` are being expanded.  It has a rule for every
way in which a walk can succeed, and no state: what is read is in the sources.

A resolver that succeeds has derived such an expansion, in all sources that know what it
has read by the end (`expand_eq_ok`).  Properties of results are proved by induction on the
derivation, and do not look at the walk again.
-/
import ClientForge.Proofs.Reference.Walk

namespace ClientForge.Resolver

set_option autoImplicit false

open Files

/-- The entries next to a reference. -/
def siblings (entries : Entries) : Entries := entries.filter fun entry => entry.1 ≠ .str "$ref"

theorem mem_of_mem_siblings {entries : Entries} {entry : Scalar × Value}
    (member : entry ∈ siblings entries) : entry ∈ entries := (List.mem_filter.mp member).1

theorem get?_siblings {key : String} (other : key ≠ "$ref") (entries : Entries) :
    Entries.get? key (siblings entries) = Entries.get? key entries := by
  induction entries with
  | nil => rfl
  | cons entry rest ih =>
      obtain ⟨k, v⟩ := entry
      by_cases refers : k = .str "$ref"
      · have different : k ≠ .str key := by
          rintro rfl
          exact other (Scalar.str.inj refers)
        have dropped : siblings ((k, v) :: rest) = siblings rest := by simp [siblings, refers]
        rw [dropped, ih, Entries.get?_cons_of_ne different]
      · have kept : siblings ((k, v) :: rest) = (k, v) :: siblings rest := by
          simp [siblings, refers]
        rw [kept]
        by_cases here : k = .str key
        · rw [here, Entries.get?_cons_self, Entries.get?_cons_self]
        · rw [Entries.get?_cons_of_ne here, Entries.get?_cons_of_ne here, ih]

theorem nodup_siblings {entries : Entries} (distinct : (entries.map Prod.fst).Nodup) :
    ((siblings entries).map Prod.fst).Nodup :=
  distinct.sublist (List.filter_sublist.map Prod.fst)

/-- What is set on a part next to a reference is no reference. -/
theorem get?_beside {entries beside : Entries}
    (keys : (siblings entries).map Prod.fst = beside.map Prod.fst) :
    Entries.get? "$ref" beside = none := by
  rw [Entries.get?_eq_none_iff]
  intro entry member same
  have key : entry.1 ∈ (siblings entries).map Prod.fst := keys ▸ List.mem_map_of_mem member
  obtain ⟨other, kept, there⟩ := List.mem_map.mp key
  have different := (List.mem_filter.mp kept).2
  simp [there, same] at different

/-- What a value expands to while some references are being expanded. -/
inductive Expands (sources : Sources) : Path → List String → Value → Value → Prop
  | atom {base : Path} {active : List String} (a : Scalar) :
      Expands sources base active (.atom a) (.atom a)
  | list {base : Path} {active : List String} {items items' : List Value} :
      items.length = items'.length →
      (∀ v w, (v, w) ∈ items.zip items' → Expands sources base active v w) →
      Expands sources base active (.list items) (.list items')
  | map {base : Path} {active : List String} {entries entries' : Entries} :
      Entries.get? "$ref" entries = none →
      entries.map Prod.fst = entries'.map Prod.fst →
      (∀ entry entry', (entry, entry') ∈ entries.zip entries' →
        Expands sources base active entry.2 entry'.2) →
      Expands sources base active (.map entries) (.map entries')
  | active {base : Path} {active : List String} {entries : Entries} {reference : String} :
      Entries.get? "$ref" entries = some (.str reference) →
      reference ∈ active →
      Expands sources base active (.map entries) (.map entries)
  | alone {base inner : Path} {active : List String} {entries : Entries} {reference : String}
      {part w : Value} :
      Entries.get? "$ref" entries = some (.str reference) →
      reference ∉ active → entries.length = 1 →
      sources.target? reference base = some (part, inner) →
      Expands sources inner (reference :: active) part w →
      Expands sources base active (.map entries) w
  | merged {base inner : Path} {active : List String} {entries fields beside : Entries}
      {reference : String} {part : Value} :
      Entries.get? "$ref" entries = some (.str reference) →
      reference ∉ active → entries.length ≠ 1 →
      sources.target? reference base = some (part, inner) →
      Expands sources inner (reference :: active) part (.map fields) →
      (siblings entries).map Prod.fst = beside.map Prod.fst →
      (∀ entry entry', (entry, entry') ∈ (siblings entries).zip beside →
        Expands sources base active entry.2 entry'.2) →
      Expands sources base active (.map entries) (.map (Entries.putAll fields beside))

/-! ## What a resolver derives -/

section Walk

variable {files : FileTable} {sources : Sources} {openRef : String → Path → Expanding Value}
  {base : Path}

/-- A walk over one value that succeeds has derived an expansion. -/
def Derives (files : FileTable) (sources : Sources) (openRef : String → Path → Expanding Value)
    (base : Path) (v : Value) : Prop :=
  ∀ r s w, expand openRef base v r = (.ok w, s) → sources.Know files s →
    Extends files r s ∧ Expands sources base r.active v w

theorem expandItems_eq_ok {items items' : List Value}
    (each : ∀ v ∈ items, Derives files sources openRef base v)
    {r s : Resolver} (run : expandItems openRef base items r = (.ok items', s))
    (know : sources.Know files s) :
    Extends files r s ∧ List.Forall₂ (Expands sources base r.active) items items' := by
  induction items generalizing items' r with
  | nil =>
      cases run
      exact ⟨.refl _, .nil⟩
  | cons v rest ih =>
      rw [expandItems] at run
      obtain ⟨w, t, head, run⟩ := bind_eq_ok run
      obtain ⟨ws, u, tail, run⟩ := bind_eq_ok run
      cases run
      obtain ⟨grown, later⟩ := ih (fun v member => each v (List.mem_cons_of_mem _ member)) tail
      obtain ⟨grown', first⟩ := each v List.mem_cons_self r t w head (know.before grown)
      rw [grown'.active] at later
      exact ⟨grown'.trans grown, .cons first later⟩

theorem expandEntries_eq_ok {entries entries' : Entries}
    (each : ∀ entry ∈ entries, Derives files sources openRef base entry.2)
    {r s : Resolver} (run : expandEntries openRef base entries r = (.ok entries', s))
    (know : sources.Know files s) :
    Extends files r s ∧
      Entries.Pointwise (Expands sources base r.active) entries entries' := by
  induction entries generalizing entries' r with
  | nil =>
      cases run
      exact ⟨.refl _, .nil⟩
  | cons entry rest ih =>
      obtain ⟨k, v⟩ := entry
      rw [expandEntries] at run
      obtain ⟨w, t, head, run⟩ := bind_eq_ok run
      obtain ⟨ws, u, tail, run⟩ := bind_eq_ok run
      cases run
      obtain ⟨grown, later⟩ :=
        ih (fun entry member => each entry (List.mem_cons_of_mem _ member)) tail
      obtain ⟨grown', first⟩ := each (k, v) List.mem_cons_self r t w head (know.before grown)
      rw [grown'.active] at later
      exact ⟨grown'.trans grown, .cons ⟨rfl, first⟩ later⟩

/-- Setting siblings one by one is setting their expansions all at once. -/
theorem expandSiblings_eq_ok {entries : Entries}
    (each : ∀ entry ∈ entries, Derives files sources openRef base entry.2)
    {fields fields' : Entries} {r s : Resolver}
    (run : expandSiblings openRef base fields entries r = (.ok fields', s))
    (know : sources.Know files s) :
    Extends files r s ∧ ∃ beside, fields' = Entries.putAll fields beside ∧
      Entries.Pointwise (Expands sources base r.active) (siblings entries) beside := by
  induction entries generalizing fields r with
  | nil =>
      cases run
      exact ⟨.refl _, [], rfl, .nil⟩
  | cons entry rest ih =>
      obtain ⟨k, v⟩ := entry
      have each' := fun entry member => each entry (List.mem_cons_of_mem _ member)
      rw [expandSiblings] at run
      split at run
      · rename_i same
        obtain ⟨grown, beside, written, related⟩ := ih each' run
        refine ⟨grown, beside, written, ?_⟩
        simpa [siblings, same] using related
      · rename_i other
        obtain ⟨w, t, head, run⟩ := bind_eq_ok run
        obtain ⟨grown, beside, written, related⟩ := ih each' run
        obtain ⟨grown', first⟩ := each (k, v) List.mem_cons_self r t w head (know.before grown)
        refine ⟨grown'.trans grown, (k, w) :: beside, written, ?_⟩
        rw [grown'.active] at related
        have kept : siblings ((k, v) :: rest) = (k, v) :: siblings rest := by
          simp [siblings, other]
        rw [kept]
        exact .cons ⟨rfl, first⟩ related

/-- A part is taken as it is, or is a map that the expansions of the siblings are set on. -/
theorem withSiblings_eq_ok {entries : Entries}
    (each : ∀ entry ∈ entries, Derives files sources openRef base entry.2)
    {part w : Value} {r s : Resolver}
    (run : withSiblings openRef base entries part r = (.ok w, s)) (know : sources.Know files s) :
    Extends files r s ∧ (entries.length = 1 ∧ w = part ∨
      entries.length ≠ 1 ∧ ∃ fields beside, part = .map fields ∧
        w = .map (Entries.putAll fields beside) ∧
        Entries.Pointwise (Expands sources base r.active) (siblings entries) beside) := by
  unfold withSiblings at run
  split at run
  · rename_i single
    cases run
    exact ⟨.refl _, Or.inl ⟨single, rfl⟩⟩
  · rename_i several
    split at run
    · rename_i fields
      obtain ⟨fields', t, walked, run⟩ := bind_eq_ok run
      cases run
      obtain ⟨grown, beside, rfl, related⟩ := expandSiblings_eq_ok each walked know
      exact ⟨grown, Or.inr ⟨several, fields, beside, rfl, rfl, related⟩⟩
    · cases run

/-- A walk derives an expansion if opening a reference does. -/
theorem expand_derives
    (grows : ∀ reference base r, Extends files r (openRef reference base r).2)
    (opened : ∀ reference base r s w, openRef reference base r = (.ok w, s) →
      sources.Know files s → ∃ part inner, sources.target? reference base = some (part, inner) ∧
        Expands sources inner (reference :: r.active) part w)
    (v : Value) : Derives files sources openRef base v := by
  intro r s w run know
  induction v generalizing r s w with
  | atom a =>
      cases run
      exact ⟨.refl _, .atom a⟩
  | list items ih =>
      rw [expand_list] at run
      obtain ⟨items', t, walked, run⟩ := bind_eq_ok run
      cases run
      obtain ⟨grown, related⟩ := expandItems_eq_ok ih walked know
      exact ⟨grown, .list related.length_eq fun v w member => List.forall₂_zip related member⟩
  | map entries ih =>
      cases refers : Entries.get? "$ref" entries with
      | none =>
          rw [expand_map_of_none _ _ refers] at run
          obtain ⟨entries', t, walked, run⟩ := bind_eq_ok run
          cases run
          obtain ⟨grown, related⟩ := expandEntries_eq_ok ih walked know
          obtain ⟨keys, values⟩ := Entries.pointwise_iff.mp related
          exact ⟨grown, .map refers keys values⟩
      | some v =>
          by_cases text : ∃ reference, v = .str reference
          · obtain ⟨reference, rfl⟩ := text
            by_cases active : reference ∈ r.active
            · rw [expand_map_of_active _ _ refers active] at run
              cases run
              exact ⟨.refl _, .active refers active⟩
            · rw [expand_map_of_inactive _ _ refers active] at run
              obtain ⟨part', t, opening, run⟩ := bind_eq_ok run
              have grown : Extends files r t := (grows reference base r).of_run opening
              obtain ⟨grown', whole⟩ := withSiblings_eq_ok ih run know
              obtain ⟨part, inner, found, expands⟩ :=
                opened _ _ _ _ _ opening (know.before grown')
              refine ⟨grown.trans grown', ?_⟩
              rcases whole with ⟨single, rfl⟩ | ⟨several, fields, beside, rfl, rfl, related⟩
              · exact .alone refers active single found expands
              · rw [grown.active] at related
                obtain ⟨keys, values⟩ := Entries.pointwise_iff.mp related
                exact .merged refers active several found expands keys values
          · rw [expand_map_of_other _ _ refers fun s same => text ⟨s, same⟩] at run
            cases run

end Walk

/-- Opening a reference that succeeds has derived what it leads to. -/
theorem openReference_eq_ok {files : FileTable} {sources : Sources} {depth : Nat}
    {reference : String} {base : Path} {r s : Resolver} {w : Value}
    (run : openReference files depth reference base r = (.ok w, s))
    (know : sources.Know files s) :
    ∃ part inner, sources.target? reference base = some (part, inner) ∧
      Expands sources inner (reference :: r.active) part w := by
  induction depth generalizing reference base r s w with
  | zero => cases run
  | succ depth ih =>
      rw [openReference] at run
      obtain ⟨⟨part, inner⟩, t, found, run⟩ := bind_eq_ok run
      have grown : Extends files r t := (target_extends files reference base r).of_run found
      obtain ⟨u, walked, rfl⟩ := withActive_eq_ok run
      have known : sources.Know files u := know.setActive u.active
      have walk := expand_derives (openReference_extends files depth)
        (fun _ _ _ _ _ opening know => ih opening know) part _ u w walked known
      have read : sources.Know files t := (known.before walk.1).setActive t.active
      refine ⟨part, inner, target_eq_ok found read, ?_⟩
      simpa [grown.active] using walk.2

/-- **What a resolver derives.**  A walk that succeeds is an expansion, in all sources that
know the documents which have been read by then. -/
theorem expand_eq_ok {files : FileTable} {sources : Sources} {depth : Nat} {base : Path}
    {v w : Value} {r s : Resolver}
    (run : expand (openReference files depth) base v r = (.ok w, s))
    (know : sources.Know files s) : Expands sources base r.active v w :=
  (expand_derives (openReference_extends files depth)
    (fun _ _ _ _ _ opening know => openReference_eq_ok opening know) v r s w run know).2

theorem resolve_eq_ok {files : FileTable} {r s : Resolver} {w : Value}
    (run : resolve files r = (.ok w, s)) :
    ∃ sources : Sources, sources.root = r.document ∧
      Expands sources (r.base.getD ⟨false, []⟩) r.active r.document w := by
  have grown : Extends files r s :=
    (expand_extends (openReference_extends files (r.depth files)) _ _ _).of_run run
  exact ⟨Sources.of files s, grown.document, expand_eq_ok run (Sources.know_of files s)⟩

end ClientForge.Resolver
