/-
# ClientForge.Proofs.Reference.Walk -- the walk over a value

`expand` walks over a value and leaves references to the function that it is given.  The
equations of its cases come first.  Then two ways of opening references are compared: where
they agree on every reference that the value mentions and that is not being expanded, the
two walks agree (`expand_agrees`).  What the two ways may rely on is any property of the
resolver that learning a document keeps.

With the same way on both sides this says that a walk only learns (`expand_extends`), and by
induction on the number of nested expansions that opening a reference does
(`openReference_extends`).
-/
import ClientForge.Proofs.Reference.Target

namespace ClientForge.Resolver

set_option autoImplicit false

open Files

section Equations

variable (openRef : String → Path → Expanding Value) (base : Path)

/-- What becomes of a part that a map refers to. -/
def withSiblings (entries : Entries) (part : Value) : Expanding Value :=
  if entries.length = 1 then pure part
  else
    match part with
    | .map fields => do return .map (← expandSiblings openRef base fields entries)
    | _ => throw (.of .mergeTargetNotObject)

theorem withSiblings_single {entries : Entries} (single : entries.length = 1) (part : Value) :
    withSiblings openRef base entries part = pure part := by
  unfold withSiblings
  rw [if_pos single]

theorem withSiblings_map {entries : Entries} (several : entries.length ≠ 1) (fields : Entries) :
    withSiblings openRef base entries (.map fields) =
      expandSiblings openRef base fields entries >>= fun fields => pure (.map fields) := by
  unfold withSiblings
  rw [if_neg several]

theorem expand_list (items : List Value) :
    expand openRef base (.list items) =
      expandItems openRef base items >>= fun items => pure (.list items) := rfl

theorem expand_map_of_none {entries : Entries} (free : Entries.get? "$ref" entries = none) :
    expand openRef base (.map entries) =
      expandEntries openRef base entries >>= fun entries => pure (.map entries) := by
  rw [expand]
  simp only [free]

variable {r : Resolver}

theorem expand_map_of_active {entries : Entries} {reference : String}
    (refers : Entries.get? "$ref" entries = some (.str reference))
    (active : reference ∈ r.active) :
    expand openRef base (.map entries) r = (.ok (.map entries), r) := by
  rw [expand]
  simp only [refers]
  rw [bind_ok (get_apply r), if_pos (List.contains_iff_mem.mpr active)]
  rfl

theorem expand_map_of_inactive {entries : Entries} {reference : String}
    (refers : Entries.get? "$ref" entries = some (.str reference))
    (inactive : reference ∉ r.active) :
    expand openRef base (.map entries) r =
      (openRef reference base >>= withSiblings openRef base entries) r := by
  rw [expand]
  simp only [refers]
  rw [bind_ok (get_apply r), if_neg (mt List.contains_iff_mem.mp inactive)]
  rfl

theorem expand_map_of_other {entries : Entries} {v : Value}
    (refers : Entries.get? "$ref" entries = some v) (other : ∀ s, v ≠ .str s) :
    expand openRef base (.map entries) r = (.error (.of .referenceNotString), r) := by
  rw [expand]
  simp only [refers]
  rfl

end Equations

/-! ## Comparing two walks -/

section Agreement

variable {files : FileTable} {first second : String → Path → Expanding Value} {base : Path}
  {holds : Resolver → Prop}

theorem expandItems_agrees (stable : ∀ r s, Extends files r s → holds r → holds s)
    (items : List Value)
    (each : ∀ v ∈ items, ∀ r, holds r →
      Agrees files (expand first base v) (expand second base v) r)
    (r : Resolver) (start : holds r) :
    Agrees files (expandItems first base items) (expandItems second base items) r := by
  induction items generalizing r with
  | nil => exact .pure []
  | cons v rest ih =>
      have head := each v List.mem_cons_self r start
      refine head.bind fun w s run => ?_
      have later : holds s := stable r s (head.grows.of_run run) start
      refine (ih (fun v member => each v (List.mem_cons_of_mem _ member)) s later).bind ?_
      exact fun ws t _ => .pure (w :: ws)

theorem expandEntries_agrees (stable : ∀ r s, Extends files r s → holds r → holds s)
    (entries : Entries)
    (each : ∀ entry ∈ entries, ∀ r, holds r →
      Agrees files (expand first base entry.2) (expand second base entry.2) r)
    (r : Resolver) (start : holds r) :
    Agrees files (expandEntries first base entries) (expandEntries second base entries) r := by
  induction entries generalizing r with
  | nil => exact .pure []
  | cons entry rest ih =>
      obtain ⟨k, v⟩ := entry
      have head := each (k, v) List.mem_cons_self r start
      refine head.bind fun w s run => ?_
      have later : holds s := stable r s (head.grows.of_run run) start
      refine (ih (fun entry member => each entry (List.mem_cons_of_mem _ member)) s later).bind ?_
      exact fun ws t _ => .pure ((k, w) :: ws)

theorem expandSiblings_agrees (stable : ∀ r s, Extends files r s → holds r → holds s)
    (entries : Entries)
    (each : ∀ entry ∈ entries, ∀ r, holds r →
      Agrees files (expand first base entry.2) (expand second base entry.2) r)
    (fields : Entries) (r : Resolver) (start : holds r) :
    Agrees files (expandSiblings first base fields entries)
      (expandSiblings second base fields entries) r := by
  induction entries generalizing fields r with
  | nil => exact .pure fields
  | cons entry rest ih =>
      obtain ⟨k, v⟩ := entry
      have each' := fun entry member => each entry (List.mem_cons_of_mem _ member)
      rw [expandSiblings, expandSiblings]
      split
      · exact ih each' fields r start
      · have head := each (k, v) List.mem_cons_self r start
        refine head.bind fun w s run => ?_
        have later : holds s := stable r s (head.grows.of_run run) start
        exact ih each' _ s later

theorem withSiblings_agrees (stable : ∀ r s, Extends files r s → holds r → holds s)
    (entries : Entries)
    (each : ∀ entry ∈ entries, ∀ r, holds r →
      Agrees files (expand first base entry.2) (expand second base entry.2) r)
    (part : Value) (r : Resolver) (start : holds r) :
    Agrees files (withSiblings first base entries part)
      (withSiblings second base entries part) r := by
  unfold withSiblings
  split
  · exact .pure part
  · split
    · exact (expandSiblings_agrees stable entries each _ r start).bind
        fun fields t _ => .pure (Value.map fields)
    · exact .throw _

/-- Two ways of opening references that agree on what a value mentions expand it alike. -/
theorem expand_agrees (stable : ∀ r s, Extends files r s → holds r → holds s) (v : Value)
    (opened : ∀ reference, v.Mentions reference → ∀ base r, holds r → reference ∉ r.active →
      Agrees files (first reference base) (second reference base) r)
    (r : Resolver) (start : holds r) :
    Agrees files (expand first base v) (expand second base v) r := by
  induction v generalizing r with
  | atom a => exact .pure (Value.atom a)
  | list items ih =>
      refine (expandItems_agrees stable items (fun v member r start => ?_) r start).bind
        fun ws s _ => .pure (Value.list ws)
      exact ih v member (fun reference mentions =>
        opened reference (mentions.whole (.item member .refl))) r start
  | map entries ih =>
      have each : ∀ entry ∈ entries, ∀ r, holds r →
          Agrees files (expand first base entry.2) (expand second base entry.2) r := by
        intro entry member r start
        exact ih entry member (fun reference mentions =>
          opened reference (mentions.whole (.entry member .refl))) r start
      cases refers : Entries.get? "$ref" entries with
      | none =>
          rw [expand_map_of_none _ _ refers, expand_map_of_none _ _ refers]
          exact (expandEntries_agrees stable entries each r start).bind
            fun ws s _ => .pure (Value.map ws)
      | some v =>
          by_cases text : ∃ reference, v = .str reference
          · obtain ⟨reference, rfl⟩ := text
            by_cases active : reference ∈ r.active
            · refine ⟨?_, ?_⟩
              · rw [expand_map_of_active _ _ refers active, expand_map_of_active _ _ refers active]
              · rw [expand_map_of_active _ _ refers active]
                exact .refl r
            · have head := opened reference ⟨entries, .refl, refers⟩ base r start active
              have whole : Agrees files
                  (first reference base >>= withSiblings first base entries)
                  (second reference base >>= withSiblings second base entries) r := by
                refine head.bind fun part s run => ?_
                have later : holds s := stable r s (head.grows.of_run run) start
                exact withSiblings_agrees stable entries each part s later
              refine ⟨?_, ?_⟩
              · rw [expand_map_of_inactive _ _ refers active,
                  expand_map_of_inactive _ _ refers active]
                exact whole.same
              · rw [expand_map_of_inactive _ _ refers active]
                exact whole.grows
          · have other : ∀ s, v ≠ .str s := fun s same => text ⟨s, same⟩
            refine ⟨?_, ?_⟩
            · rw [expand_map_of_other _ _ refers other, expand_map_of_other _ _ refers other]
            · rw [expand_map_of_other _ _ refers other]
              exact .refl r

end Agreement

/-! ## A walk only learns -/

theorem expand_extends {files : FileTable} {openRef : String → Path → Expanding Value}
    (opened : ∀ reference base r, Extends files r (openRef reference base r).2) (base : Path)
    (v : Value) (r : Resolver) : Extends files r (expand openRef base v r).2 :=
  have stable : ∀ r s, Extends files r s → True → True := fun _ _ _ _ => trivial
  (expand_agrees stable v
    (fun reference _ base r _ _ => ⟨rfl, opened reference base r⟩) r trivial).grows

theorem openReference_extends (files : FileTable) (depth : Nat) (reference : String)
    (base : Path) (r : Resolver) :
    Extends files r (openReference files depth reference base r).2 := by
  induction depth generalizing reference base r with
  | zero => exact .refl r
  | succ depth ih =>
      refine bind_extends (target_extends files reference base r) fun found s _ => ?_
      have inner := expand_extends ih found.2 found.1 { s with active := reference :: s.active }
      exact (Agrees.withActive reference ⟨rfl, inner⟩).grows

end ClientForge.Resolver
