/-
# ClientForge.Proofs.Reference.Termination -- references are never expanded for ever

`openOnce` opens one reference and leaves those inside it to a function that it is given; a
resolver without a bound would be a function that is its own `openOnce`.  Two facts show
that there is one, and that the bound of `resolve` is none:

* a reference that is opened inside another one is not being expanded yet, and it comes out
  of a document that is known or out of a file, so there are finitely many of them and each
  opening leaves fewer (`unopened_open`);
* between two openings the walk only gets smaller, which is why `expand` needs no bound.

So what happens below as many openings as there are references does not matter
(`iterate_agrees`), whatever it is.  `resolve_terminates` puts this together.
-/
import ClientForge.Proofs.Files.Writing
import ClientForge.Proofs.Reference.SchemaName
import ClientForge.Proofs.Reference.Walk
import Mathlib.Data.Finset.Card
import Mathlib.Logic.Function.Iterate

namespace ClientForge.Resolver

set_option autoImplicit false

open Files

/-! ## The documents that a resolver can read -/

theorem mem_references_list {items : List Value} {v : Value} {reference : String}
    (member : v ∈ items) (refers : reference ∈ v.references) :
    reference ∈ (Value.list items).references := by
  rw [Value.references]
  induction items with
  | nil => cases member
  | cons first rest ih =>
      rw [Value.references.ofItems, List.mem_append]
      rcases List.mem_cons.mp member with rfl | later
      · exact Or.inl refers
      · exact Or.inr (ih later)

theorem mem_references_map {entries : Entries} {k : Scalar} {v : Value} {reference : String}
    (member : (k, v) ∈ entries)
    (refers : reference ∈ v.references ∨ k = .str "$ref" ∧ v = .str reference) :
    reference ∈ (Value.map entries).references := by
  rw [Value.references]
  induction entries with
  | nil => cases member
  | cons first rest ih =>
      obtain ⟨k', v'⟩ := first
      unfold Value.references.ofEntries
      rw [List.mem_append, List.mem_append]
      rcases List.mem_cons.mp member with same | later
      · cases same
        rcases refers with inner | ⟨rfl, rfl⟩
        · exact Or.inl (Or.inr inner)
        · exact Or.inl (Or.inl List.mem_cons_self)
      · exact Or.inr (ih later)

/-- What a value mentions is among its references. -/
theorem mem_references {v : Value} {reference : String} (mentions : v.Mentions reference) :
    reference ∈ v.references := by
  obtain ⟨entries, part, refers⟩ := mentions
  induction part with
  | refl => exact mem_references_map (Entries.mem_of_get? refers) (Or.inr ⟨rfl, rfl⟩)
  | item member _ ih => exact mem_references_list member ih
  | entry member _ ih => exact mem_references_map member (Or.inl ih)

theorem walk_eq_ok {files : FileTable} {here found : Place} {parts : List String}
    (up : ".." ∉ parts) (run : files.walk here parts = .ok found) : found = here ++ parts := by
  induction parts generalizing here with
  | nil =>
      cases run
      simp
  | cons part rest ih =>
      rw [List.mem_cons, not_or] at up
      rw [FileTable.walk] at run
      split at run
      · cases run
      · split at run
        · cases run
        · split at run
          · rename_i same
            exact absurd same.symm up.1
          · split at run
            · cases run
            · simpa using ih up.2 run

theorem readBytes_ofPlace {files : FileTable} {place : Place} {bytes : List UInt8}
    (up : ".." ∉ place) (read : files.readBytes (.ofPlace place) = .ok bytes) :
    files.contents? place = some bytes := by
  cases reached : files.reach (.ofPlace place) with
  | error e =>
      rw [FileTable.readBytes, reached] at read
      cases read
  | ok found =>
      obtain ⟨-, -, walked⟩ := FileTable.reach_eq_ok reached
      have same : found = place := walk_eq_ok up walked
      exact same ▸ FileTable.contents?_of_readBytes reached read

/-- A file whose place has no double dots is read from its own place. -/
theorem mem_documents {files : FileTable} {place : Place} {v : Value} (up : ".." ∉ place)
    (read : files.readStructured (.ofPlace place) = .ok v) : v ∈ files.documents := by
  have stored : ∃ bytes, files.contents? place = some bytes := by
    cases content : files.readBytes (.ofPlace place) with
    | error e =>
        simp [FileTable.readStructured, FileTable.readText, content, bind, Except.bind] at read
    | ok bytes => exact ⟨bytes, readBytes_ofPlace up content⟩
  obtain ⟨bytes, stored⟩ := stored
  obtain ⟨before, after, same, -⟩ := List.lookup_eq_some_iff.mp stored
  have member : (place, bytes) ∈ files.files := by simp [same]
  exact List.mem_filterMap.mpr ⟨(place, bytes), member, by simp [read, Except.toOption]⟩

/-! ## The references that are left to open -/

/-- How many of the references are not being expanded. -/
def unopened (references : List String) (r : Resolver) : Nat :=
  (references.toFinset \ r.active.toFinset).card

/-- Opening one of the references leaves fewer. -/
theorem unopened_open {references : List String} {r : Resolver} {reference : String}
    (member : reference ∈ references) (inactive : reference ∉ r.active) :
    unopened references { r with active := reference :: r.active } < unopened references r := by
  unfold unopened
  rw [List.toFinset_cons]
  have fewer := Finset.sdiff_subset_sdiff (Finset.Subset.refl references.toFinset)
    (Finset.subset_insert reference r.active.toFinset)
  refine Finset.card_lt_card ((Finset.ssubset_iff_of_subset fewer).mpr ⟨reference, ?_, ?_⟩)
  · simp [member, inactive]
  · simp

theorem unopened_le (references : List String) (r : Resolver) :
    unopened references r ≤ references.length :=
  (Finset.card_le_card Finset.sdiff_subset).trans (List.toFinset_card_le references)

/-- The documents that a resolver knows mention no others than the given references. -/
structure Covered (references : List String) (r : Resolver) : Prop where
  document : ∀ x, r.document.Mentions x → x ∈ references
  cache : ∀ entry ∈ r.cache, ∀ x, (Value.map entry.2).Mentions x → x ∈ references

/-- The documents of the files mention no others than the given references. -/
def FilesCovered (references : List String) (files : FileTable) : Prop :=
  ∀ v ∈ files.documents, ∀ x, v.Mentions x → x ∈ references

theorem Covered.extends {references : List String} {files : FileTable} {r s : Resolver}
    (inFiles : FilesCovered references files) (covered : Covered references r)
    (grown : Extends files r s) : Covered references s := by
  refine grown.keeps ?_ covered
  rintro t u ⟨up, -, read⟩ covered
  refine ⟨covered.document, fun entry member => ?_⟩
  rcases List.mem_append.mp member with old | new
  · exact covered.cache entry old
  · cases List.mem_singleton.mp new
    exact inFiles _ (mem_documents up read)

/-- The references of a resolver and of all files cover both. -/
theorem covered_known (files : FileTable) (r : Resolver) :
    ∃ references, references.length < r.depth files ∧ Covered references r ∧
      FilesCovered references files := by
  refine ⟨_, Nat.lt_succ_self _, ⟨fun x mentions => ?_, fun entry member x mentions => ?_⟩,
    fun v member x mentions => ?_⟩
  · exact List.mem_flatMap.mpr ⟨_, List.mem_cons_self, mem_references mentions⟩
  · refine List.mem_flatMap.mpr ⟨_, ?_, mem_references mentions⟩
    exact List.mem_append_left _ (List.mem_cons_of_mem _ (List.mem_map_of_mem member))
  · refine List.mem_flatMap.mpr ⟨_, ?_, mem_references mentions⟩
    exact List.mem_append_right _ member

/-! ## Opening without a bound -/

/-- Open one reference, and those inside it with `openRef`. -/
def openOnce (files : FileTable) (openRef : String → Path → Expanding Value)
    (reference : String) (base : Path) : Expanding Value := do
  let (part, inner) ← target files reference base
  withActive reference (expand openRef inner part)

/-- `openReference` opens references once inside one another, and fails at the bottom. -/
theorem openReference_eq (files : FileTable) (n : Nat) :
    openReference files n = (openOnce files)^[n] fun _ _ => throw .illShaped := by
  induction n with
  | zero => rfl
  | succ n ih => rw [Function.iterate_succ_apply', ← ih]; rfl

section Bound

variable {files : FileTable} {references : List String}

theorem part_covered {reference : String} {base inner : Path} {r s : Resolver} {part : Value}
    (covered : Covered references s)
    (run : target files reference base r = (.ok (part, inner), s)) :
    ∀ x, part.Mentions x → x ∈ references := by
  intro x mentions
  obtain ⟨document, raw, rfl, within, origin⟩ :=
    Sources.target?_part (target_eq_ok run (Sources.know_of files s))
  have mentioned := (mentions_tagged mentions).whole within
  rcases origin with rfl | ⟨place, entries, known, rfl⟩
  · exact covered.document x mentioned
  · obtain ⟨before, after, same, -⟩ := List.lookup_eq_some_iff.mp known
    exact covered.cache (place, entries) (by simp [same]) x mentioned

/-- Opening a reference opens only references that are left. -/
theorem openOnce_agrees (inFiles : FilesCovered references files) (room : Nat)
    {first second : String → Path → Expanding Value} {reference : String}
    (opened : ∀ inner ∈ references, ∀ base r, Covered references r →
      unopened references r ≤ room → inner ∉ r.active →
      Agrees files (first inner base) (second inner base) r)
    (base : Path) (r : Resolver) (covered : Covered references r)
    (left : unopened references { r with active := reference :: r.active } ≤ room) :
    Agrees files (openOnce files first reference base) (openOnce files second reference base)
      r := by
  refine Agrees.bind ⟨rfl, target_extends files reference base r⟩ fun found s run => ?_
  obtain ⟨part, inner⟩ := found
  have grown : Extends files r s := (target_extends files reference base r).of_run run
  have known := covered.extends inFiles grown
  have stable : ∀ t u, Extends files t u →
      Covered references t ∧ unopened references t ≤ room →
      Covered references u ∧ unopened references u ≤ room := by
    rintro t u grown ⟨covered, left⟩
    refine ⟨covered.extends inFiles grown, ?_⟩
    rwa [unopened, grown.active]
  refine Agrees.withActive reference (expand_agrees stable part ?_ _ ⟨?_, ?_⟩)
  · intro other mentions base t holds inactive
    exact opened other (part_covered known run other mentions) base t holds.1 holds.2 inactive
  · exact ⟨known.document, known.cache⟩
  · simpa [unopened, grown.active] using left

/-- What stands below enough openings does not matter. -/
theorem iterate_agrees (inFiles : FilesCovered references files)
    (first second : String → Path → Expanding Value) {n m : Nat} {reference : String}
    (member : reference ∈ references) (base : Path) (r : Resolver)
    (covered : Covered references r) (enough : unopened references r ≤ n)
    (enough' : unopened references r ≤ m) (inactive : reference ∉ r.active) :
    Agrees files ((openOnce files)^[n] first reference base)
      ((openOnce files)^[m] second reference base) r := by
  have fewer := unopened_open member inactive
  induction n generalizing m reference base r with
  | zero => omega
  | succ n ih =>
      obtain ⟨m, rfl⟩ : ∃ k, m = k + 1 := ⟨m - 1, by omega⟩
      rw [Function.iterate_succ_apply', Function.iterate_succ_apply']
      refine openOnce_agrees inFiles (min n m) ?_ base r covered (by omega)
      intro inner member base t covered left inactive
      exact ih member base t covered (by omega) (by omega) inactive (unopened_open member inactive)

end Bound

theorem openReference_agrees {files : FileTable} {references : List String}
    (inFiles : FilesCovered references files) {n m : Nat} {reference : String}
    (member : reference ∈ references) (base : Path) (r : Resolver)
    (covered : Covered references r) (enough : references.length ≤ n)
    (enough' : references.length ≤ m) (inactive : reference ∉ r.active) :
    Agrees files (openReference files n reference base) (openReference files m reference base)
      r := by
  have left := unopened_le references r
  rw [openReference_eq, openReference_eq]
  exact iterate_agrees inFiles _ _ member base r covered (by omega) (by omega) inactive

/-- Open a reference with as many openings inside it as the documents at hand can ask for. -/
def openFully (files : FileTable) (reference : String) (base : Path) : Expanding Value :=
  fun r => openReference files (r.depth files + 1) reference base r

/-- Opening fully asks for no bound: it opens once, and then fully. -/
theorem openFully_eq (files : FileTable) : openFully files = openOnce files (openFully files) := by
  funext reference base r
  obtain ⟨references, fewer, covered, inFiles⟩ := covered_known files r
  have once : Agrees files (openOnce files (openReference files (r.depth files)) reference base)
      (openOnce files (openFully files) reference base) r := by
    refine openOnce_agrees inFiles _ ?_ base r covered (unopened_le references _)
    intro inner member base t known _ inactive
    -- The two bounds belong to different resolvers, so they meet in one above both.
    obtain ⟨others, fewer', known', inFiles'⟩ := covered_known files t
    have above : Agrees files (openReference files (r.depth files) inner base)
        (openReference files (r.depth files + t.depth files) inner base) t :=
      openReference_agrees inFiles member base t known fewer.le (by omega) inactive
    have below : Agrees files (openReference files (r.depth files + t.depth files) inner base)
        (openReference files (t.depth files + 1) inner base) t := by
      have inFiles'' : FilesCovered (inner :: others) files :=
        fun v member x mentions => List.mem_cons_of_mem _ (inFiles' v member x mentions)
      refine openReference_agrees inFiles'' List.mem_cons_self base t ⟨?_, ?_⟩ ?_ ?_ inactive
      · exact fun x mentions => List.mem_cons_of_mem _ (known'.document x mentions)
      · exact fun entry member x mentions =>
          List.mem_cons_of_mem _ (known'.cache entry member x mentions)
      · simp only [List.length_cons]
        omega
      · simp only [List.length_cons]
        omega
    exact ⟨above.same.trans below.same, above.grows⟩
  exact once.same

/-- Below as many openings as there are references, any way of opening will do. -/
theorem expand_iterate (files : FileTable) (r : Resolver)
    (last : String → Path → Expanding Value) {n : Nat} (enough : r.depth files ≤ n)
    (base : Path) :
    expand ((openOnce files)^[n] last) base r.document r =
      expand (openReference files (r.depth files)) base r.document r := by
  obtain ⟨references, fewer, covered, inFiles⟩ := covered_known files r
  have stable : ∀ t u, Extends files t u → Covered references t → Covered references u :=
    fun t u grown covered => covered.extends inFiles grown
  refine (expand_agrees stable r.document ?_ r covered).same
  intro reference mentions base t known inactive
  have left := unopened_le references t
  rw [openReference_eq]
  exact iterate_agrees inFiles _ _ (covered.document reference mentions) base t known
    (by omega) (by omega) inactive

/-- A way of opening references that counts nothing resolves a document as `resolve` does. -/
theorem resolve_eq_expand {files : FileTable} {openRef : String → Path → Expanding Value}
    (closed : openRef = openOnce files openRef) (r : Resolver) :
    resolve files r = expand openRef (r.base.getD ⟨false, []⟩) r.document r := by
  have unrolled : (openOnce files)^[r.depth files] openRef = openRef :=
    Function.iterate_fixed closed.symm _
  rw [← unrolled]
  exact (expand_iterate files r openRef le_rfl _).symm

/-- **Resolving references needs no bound.**  There is a way of opening references that opens
each once and those inside it in the same way, without counting; every such way resolves a
document as `resolve` does; and so does any number of nested openings that is not below
`depth`, whatever would be done at the bottom. -/
theorem resolve_terminates (files : FileTable) :
    (∃ openRef, openRef = openOnce files openRef) ∧
      (∀ openRef, openRef = openOnce files openRef → ∀ r : Resolver,
        resolve files r = expand openRef (r.base.getD ⟨false, []⟩) r.document r) ∧
      ∀ (r : Resolver) (last : String → Path → Expanding Value) (n : Nat),
        r.depth files ≤ n →
          expand ((openOnce files)^[n] last) (r.base.getD ⟨false, []⟩) r.document r =
            resolve files r := by
  refine ⟨⟨openFully files, openFully_eq files⟩, fun openRef closed r => ?_,
    fun r last n enough => ?_⟩
  · exact resolve_eq_expand closed r
  · exact expand_iterate files r last enough _

/-- Two schemas that refer to each other, one of them with a sibling. -/
def mutualSchemas : Resolver :=
  .start (schemaDocument [("A", schemaNode "B" []),
    ("B", schemaNode "A" [("nullable", .bool true)])])
    none

theorem resolve_terminates_mutual :
    mutualSchemas.depth ⟨[], [], []⟩ ≤ 7 ∧
      expand ((openOnce ⟨[], [], []⟩)^[7] fun _ _ => throw .illShaped) ⟨false, []⟩
          mutualSchemas.document mutualSchemas = resolve ⟨[], [], []⟩ mutualSchemas ∧
      expand (openFully ⟨[], [], []⟩) ⟨false, []⟩ mutualSchemas.document mutualSchemas =
        resolve ⟨[], [], []⟩ mutualSchemas ∧
      ∃ w, (resolve ⟨[], [], []⟩ mutualSchemas).1 = .ok w := by
  have bound : mutualSchemas.depth ⟨[], [], []⟩ ≤ 7 := by decide
  obtain ⟨-, closed, enough⟩ := resolve_terminates ⟨[], [], []⟩
  refine ⟨bound, enough mutualSchemas _ 7 bound, ?_, _, rfl⟩
  exact (closed _ (openFully_eq _) mutualSchemas).symm

end ClientForge.Resolver
