/-
# ClientForge.Proofs.Imports.Order -- how much the order of references matters

References come out of sets, which have no order of their own, and import statements are
written in an order.  What that depends on is seen when the groups of a list of references
are given all at once (`ofRefs_eq`): there is one for every module, in the order in which the
modules come first, with the references to that module.  The statements of a module need of
their references only which they are, and which default is the first.

So two lists of references give the same statements if they name the same modules and the
same defaults in the same order, and have the same references (`Interchangeable`).  This is
said of lists with repeats, because repeats matter nowhere, and lists that are put together
of interchangeable pieces are interchangeable.
-/
import ClientForge.Imports.Block
import ClientForge.Proofs.Contract.Imports
import Mathlib.Data.List.Forall2
import Mathlib.Data.List.Induction
import Mathlib.Data.List.Nodup
import Mathlib.Data.List.Sort
import Mathlib.Data.String.Basic

namespace ClientForge

set_option autoImplicit false

/-! ## Repeats -/

section Repeats

variable {α : Type} [DecidableEq α]

theorem eraseDups_snoc (xs : List α) (x : α) :
    (xs ++ [x]).eraseDups = if x ∈ xs then xs.eraseDups else xs.eraseDups ++ [x] := by
  rw [List.eraseDups_append]
  split
  · rename_i known
    simp [List.removeAll, known]
  · rename_i new
    simp [List.removeAll, new, List.eraseDups_cons]

theorem nodup_eraseDups (xs : List α) : xs.eraseDups.Nodup := by
  induction xs using List.reverseRecOn with
  | nil => exact List.nodup_nil
  | append_singleton xs x ih =>
      rw [eraseDups_snoc]
      split
      · exact ih
      · rename_i new
        refine List.nodup_append.mpr ⟨ih, List.nodup_singleton x, ?_⟩
        intro y old z only same
        rw [same, List.mem_singleton.mp only, List.mem_eraseDups] at old
        exact new old

end Repeats

theorem ImportSet.insert_of_mem {set : ImportSet} {ref : ImportRef} (known : ref ∈ set.refs) :
    set.insert ref = set := by
  rw [insert, contains, if_pos (List.contains_iff_mem.mpr known)]

theorem ImportSet.insert_of_not_mem {set : ImportSet} {ref : ImportRef} (new : ref ∉ set.refs) :
    set.insert ref = ⟨set.refs ++ [ref]⟩ := by
  rw [insert, contains, if_neg (mt List.contains_iff_mem.mp new)]

theorem ImportSet.insertAll_snoc (set : ImportSet) (refs : List ImportRef) (ref : ImportRef) :
    set.insertAll (refs ++ [ref]) = (set.insertAll refs).insert ref := List.foldl_concat ..

theorem distinctRefs_snoc (refs : List ImportRef) (ref : ImportRef) :
    distinctRefs (refs ++ [ref]) =
      if ref ∈ refs then distinctRefs refs else distinctRefs refs ++ [ref] := by
  have member := mem_distinctRefs refs ref
  unfold distinctRefs at member ⊢
  rw [ImportSet.insertAll_snoc]
  split
  · rename_i known
    rw [ImportSet.insert_of_mem (member.mpr known)]
  · rename_i new
    rw [ImportSet.insert_of_not_mem (mt member.mp new)]

theorem nodup_distinctRefs (refs : List ImportRef) : (distinctRefs refs).Nodup := by
  have same : distinctRefs refs = refs.eraseDups := by
    induction refs using List.reverseRecOn with
    | nil => rfl
    | append_singleton refs ref ih => rw [distinctRefs_snoc, eraseDups_snoc, ih]
  rw [same]
  exact nodup_eraseDups refs

/-- Adding references without repeats adds the same. -/
theorem ImportSet.insertAll_distinctRefs (set : ImportSet) (refs : List ImportRef) :
    set.insertAll (distinctRefs refs) = set.insertAll refs := by
  induction refs using List.reverseRecOn with
  | nil => rfl
  | append_singleton refs ref ih =>
      rw [distinctRefs_snoc, insertAll_snoc]
      split
      · rename_i known
        rw [ih, insert_of_mem ((mem_insertAll _ _ _).mpr (Or.inr known))]
      · rw [insertAll_snoc, ih]

theorem distinctRefs_append_distinctRefs (first second : List ImportRef) :
    distinctRefs (distinctRefs first ++ distinctRefs second) = distinctRefs (first ++ second) := by
  have split : ∀ front back : List ImportRef, distinctRefs (front ++ back) =
      ((ImportSet.insertAll {} front).insertAll back).refs := by
    intro front back
    rw [distinctRefs, ImportSet.insertAll, List.foldl_append]
    rfl
  rw [split, split, ImportSet.insertAll_distinctRefs, ImportSet.insertAll_distinctRefs]

theorem distinctRefs_distinctRefs (refs : List ImportRef) :
    distinctRefs (distinctRefs refs) = distinctRefs refs :=
  congrArg ImportSet.refs (ImportSet.insertAll_distinctRefs {} refs)

/-- What is in a set of references counts as in front of what is added to it. -/
theorem distinctRefs_insertAll (set : ImportSet) (refs : List ImportRef) :
    distinctRefs (set.insertAll refs).refs = distinctRefs (set.refs ++ refs) := by
  induction refs using List.reverseRecOn with
  | nil => rw [List.append_nil, ImportSet.insertAll, List.foldl_nil]
  | append_singleton refs ref ih =>
      have member : ref ∈ (set.insertAll refs).refs ↔ ref ∈ set.refs ++ refs := by
        rw [mem_insertAll, List.mem_append]
      rw [ImportSet.insertAll_snoc, ← List.append_assoc, distinctRefs_snoc]
      split
      · rename_i known
        rw [ImportSet.insert_of_mem (member.mpr known), ih]
      · rename_i new
        rw [ImportSet.insert_of_not_mem (mt member.mp new), distinctRefs_snoc,
          if_neg (mt member.mp new), ih]

/-! ## Groups -/

namespace ImportGroup

variable {models : String}

/-- The references to a module. -/
def refsOf (models : String) (refs : List ImportRef) (specifier : String) : List ImportRef :=
  refs.filter fun ref => specifierOf models ref = specifier

/-- The modules that references are imported from, in the order in which they come first. -/
def modulesOf (models : String) (refs : List ImportRef) : List String :=
  (refs.map (specifierOf models)).eraseDups

theorem nodup_modulesOf (models : String) (refs : List ImportRef) :
    (modulesOf models refs).Nodup := nodup_eraseDups _

theorem modulesOf_snoc (refs : List ImportRef) (ref : ImportRef) :
    modulesOf models (refs ++ [ref]) =
      if specifierOf models ref ∈ modulesOf models refs then modulesOf models refs
      else modulesOf models refs ++ [specifierOf models ref] := by
  unfold modulesOf
  rw [List.map_append, List.map_singleton, eraseDups_snoc]
  simp only [List.mem_eraseDups]

theorem mem_modulesOf {refs : List ImportRef} {ref : ImportRef} (member : ref ∈ refs) :
    specifierOf models ref ∈ modulesOf models refs :=
  List.mem_eraseDups.mpr (List.mem_map.mpr ⟨ref, member, rfl⟩)

/-- The group of a module. -/
def ofModule (models : String) (refs : List ImportRef) (specifier : String) : ImportGroup :=
  ⟨specifier, distinctRefs (refsOf models refs specifier)⟩

theorem refsOf_snoc_self (refs : List ImportRef) (ref : ImportRef) :
    refsOf models (refs ++ [ref]) (specifierOf models ref) =
      refsOf models refs (specifierOf models ref) ++ [ref] := by
  simp [refsOf]

theorem refsOf_snoc_other (refs : List ImportRef) {ref : ImportRef} {specifier : String}
    (other : specifierOf models ref ≠ specifier) :
    refsOf models (refs ++ [ref]) specifier = refsOf models refs specifier := by
  simp [refsOf, other]

theorem ofModule_snoc_self (refs : List ImportRef) (ref : ImportRef) :
    ofModule models (refs ++ [ref]) (specifierOf models ref) =
      { ofModule models refs (specifierOf models ref) with
        refs :=
          if (ofModule models refs (specifierOf models ref)).refs.contains ref
          then (ofModule models refs (specifierOf models ref)).refs
          else (ofModule models refs (specifierOf models ref)).refs ++ [ref] } := by
  unfold ofModule
  rw [refsOf_snoc_self, distinctRefs_snoc]
  simp

theorem ofModule_snoc_other (refs : List ImportRef) {ref : ImportRef} {specifier : String}
    (other : specifierOf models ref ≠ specifier) :
    ofModule models (refs ++ [ref]) specifier = ofModule models refs specifier := by
  rw [ofModule, refsOf_snoc_other refs other, ofModule]

/-- A reference is added to the group of its module. -/
theorem insert_map_ofModule (refs : List ImportRef) (ref : ImportRef) (modules : List String)
    (distinct : modules.Nodup) :
    insert (specifierOf models ref) ref (modules.map (ofModule models refs)) =
      if specifierOf models ref ∈ modules then modules.map (ofModule models (refs ++ [ref]))
      else modules.map (ofModule models refs) ++ [⟨specifierOf models ref, [ref]⟩] := by
  induction modules with
  | nil => rfl
  | cons first rest ih =>
      obtain ⟨apart, distinct⟩ := List.nodup_cons.mp distinct
      rw [List.map_cons, insert]
      by_cases here : first = specifierOf models ref
      · subst here
        have others : rest.map (ofModule models (refs ++ [ref])) =
            rest.map (ofModule models refs) := by
          refine List.map_congr_left fun specifier member => ?_
          refine ofModule_snoc_other refs ?_
          rintro rfl
          exact apart member
        rw [if_pos (by rfl), if_pos List.mem_cons_self, List.map_cons, ofModule_snoc_self, others]
      · rw [if_neg (by exact here), ih distinct, List.map_cons,
          ofModule_snoc_other refs (Ne.symm here)]
        simp only [List.mem_cons, Ne.symm here, false_or]
        split <;> rfl

theorem ofRefs_snoc (models : String) (refs : List ImportRef) (ref : ImportRef) :
    ofRefs models (refs ++ [ref]) = insert (specifierOf models ref) ref (ofRefs models refs) :=
  List.foldl_concat ..

/-- The groups of references, all at once: one for every module, in order. -/
theorem ofRefs_eq (models : String) (refs : List ImportRef) :
    ofRefs models refs = (modulesOf models refs).map (ofModule models refs) := by
  induction refs using List.reverseRecOn with
  | nil => rfl
  | append_singleton refs ref ih =>
      rw [ofRefs_snoc, ih, insert_map_ofModule refs ref _ (nodup_modulesOf models refs),
        modulesOf_snoc]
      split
      · rfl
      · rename_i new
        have others : (modulesOf models refs).map (ofModule models refs) =
            (modulesOf models refs).map (ofModule models (refs ++ [ref])) := by
          refine List.map_congr_left fun specifier member => ?_
          refine (ofModule_snoc_other refs ?_).symm
          rintro rfl
          exact new member
        have alone : refsOf models refs (specifierOf models ref) = [] := by
          refine List.filter_eq_nil_iff.mpr fun other member same => ?_
          have there : specifierOf models other ∈ modulesOf models refs := mem_modulesOf member
          rw [of_decide_eq_true same] at there
          exact new there
        rw [List.map_append, others, List.map_singleton]
        unfold ofModule
        rw [refsOf_snoc_self, alone]
        rfl

/-- A reference that is there changes no group. -/
theorem ofRefs_snoc_of_mem {refs : List ImportRef} {ref : ImportRef} (known : ref ∈ refs) :
    ofRefs models (refs ++ [ref]) = ofRefs models refs := by
  rw [ofRefs_eq, ofRefs_eq, modulesOf_snoc, if_pos (mem_modulesOf known)]
  refine List.map_congr_left fun specifier _ => ?_
  by_cases here : specifierOf models ref = specifier
  · subst here
    have among : ref ∈ refsOf models refs (specifierOf models ref) := by simp [refsOf, known]
    rw [ofModule, refsOf_snoc_self, distinctRefs_snoc, if_pos among, ofModule]
  · exact ofModule_snoc_other refs here

/-- Repeats change no group. -/
theorem ofRefs_distinctRefs (models : String) (refs : List ImportRef) :
    ofRefs models (distinctRefs refs) = ofRefs models refs := by
  induction refs using List.reverseRecOn with
  | nil => rfl
  | append_singleton refs ref ih =>
      rw [distinctRefs_snoc]
      split
      · rename_i known
        rw [ih, ofRefs_snoc_of_mem known]
      · rw [ofRefs_snoc, ih, ofRefs_snoc]

/-! ## Statements -/

section Statements

variable {g h : ImportGroup}

/-- Sorting leaves nothing of an order. -/
theorem named_congr (same : ∀ ref, ref ∈ g.refs ↔ ref ∈ h.refs) : g.named = h.named := by
  have names : (((g.refs.filter (!·.isDefault)).map ImportRef.name).eraseDups).Perm
      ((h.refs.filter (!·.isDefault)).map ImportRef.name).eraseDups := by
    refine (List.perm_ext_iff_of_nodup (nodup_eraseDups _) (nodup_eraseDups _)).mpr fun name => ?_
    simp [same]
  have sorted : g.named.Perm h.named :=
    (List.mergeSort_perm _ _).trans (names.trans (List.mergeSort_perm _ _).symm)
  exact sorted.eq_of_sortedLE List.sortedLE_mergeSort List.sortedLE_mergeSort

theorem typesOnly_congr (same : ∀ ref, ref ∈ g.refs ↔ ref ∈ h.refs) :
    g.typesOnly = h.typesOnly := by
  unfold typesOnly
  rw [Bool.eq_iff_iff]
  simp [same]

/-- The statements of a module depend on which its references are, and on the default. -/
theorem lines_congr (profile : Profile) (dependencies : List Dependency)
    (specifier : g.specifier = h.specifier) (default : g.default? = h.default?)
    (same : ∀ ref, ref ∈ g.refs ↔ ref ∈ h.refs) :
    g.lines profile dependencies = h.lines profile dependencies := by
  have named := named_congr same
  have types := typesOnly_congr same
  unfold lines namedLines fromText
  rw [specifier, default, named, types]

end Statements

end ImportGroup

/-! ## References that may be exchanged -/

open ImportGroup (specifierOf refsOf modulesOf ofModule)

/-- Lists of references that differ in the order of what is imported from the same module, and
in nothing else that statements depend on. -/
structure Interchangeable (models : String) (first second : List ImportRef) : Prop where
  modules : first.map (specifierOf models) = second.map (specifierOf models)
  defaults : first.filter ImportRef.isDefault = second.filter ImportRef.isDefault
  members : ∀ ref, ref ∈ first ↔ ref ∈ second

namespace Interchangeable

variable {models : String} {first second third fourth : List ImportRef}

theorem refl (refs : List ImportRef) : Interchangeable models refs refs :=
  ⟨rfl, rfl, fun _ => Iff.rfl⟩

theorem append (front : Interchangeable models first second)
    (back : Interchangeable models third fourth) :
    Interchangeable models (first ++ third) (second ++ fourth) where
  modules := by rw [List.map_append, List.map_append, front.modules, back.modules]
  defaults := by rw [List.filter_append, List.filter_append, front.defaults, back.defaults]
  members ref := by rw [List.mem_append, List.mem_append, front.members, back.members]

/-- Pieces that may be exchanged one by one. -/
theorem flatMap {α β : Type} {as : List α} {bs : List β} {f : α → List ImportRef}
    {g : β → List ImportRef}
    (each : List.Forall₂ (fun a b => Interchangeable models (f a) (g b)) as bs) :
    Interchangeable models (as.flatMap f) (bs.flatMap g) := by
  induction each with
  | nil => exact refl []
  | cons head _ ih => exact head.append ih

/-- Models may be exchanged with models. -/
theorem of_models (perm : first.Perm second) (model : ∀ ref ∈ first, ∃ name, ref = .model name) :
    Interchangeable models first second := by
  have inSecond : ∀ ref ∈ second, ∃ name, ref = .model name :=
    fun ref member => model ref (perm.mem_iff.mpr member)
  have same : ∀ refs : List ImportRef, (∀ ref ∈ refs, ∃ name, ref = .model name) →
      refs.map (specifierOf models) = List.replicate refs.length models ∧
        refs.filter ImportRef.isDefault = [] := by
    intro refs model
    refine ⟨List.eq_replicate_iff.mpr ⟨List.length_map .., fun specifier member => ?_⟩,
      List.filter_eq_nil_iff.mpr fun ref member => ?_⟩
    · obtain ⟨ref, there, rfl⟩ := List.mem_map.mp member
      obtain ⟨name, rfl⟩ := model ref there
      rfl
    · obtain ⟨name, rfl⟩ := model ref member
      exact Bool.false_ne_true
  obtain ⟨modules, defaults⟩ := same first model
  obtain ⟨modules', defaults'⟩ := same second inSecond
  refine ⟨?_, defaults.trans defaults'.symm, fun ref => perm.mem_iff⟩
  rw [modules, modules', perm.length_eq]

/-- The first default of a module is the same. -/
theorem find?_default (same : Interchangeable models first second) (specifier : String) :
    (refsOf models first specifier).find? ImportRef.isDefault =
      (refsOf models second specifier).find? ImportRef.isDefault := by
  have swapped : ∀ refs : List ImportRef,
      (refsOf models refs specifier).find? ImportRef.isDefault =
        (refs.filter ImportRef.isDefault).find? fun ref => specifierOf models ref = specifier := by
    intro refs
    unfold refsOf
    rw [List.find?_filter, List.find?_filter]
    congr 1
    funext ref
    simp [and_comm]
  rw [swapped, swapped, same.defaults]

end Interchangeable

/-- A default is found first with repeats and without. -/
theorem find?_distinctRefs (p : ImportRef → Bool) (refs : List ImportRef) :
    (distinctRefs refs).find? p = refs.find? p := by
  induction refs using List.reverseRecOn with
  | nil => rfl
  | append_singleton refs ref ih =>
      rw [distinctRefs_snoc, List.find?_append]
      split
      · rename_i known
        rw [ih]
        cases found : refs.find? p with
        | some other => rfl
        | none =>
            have fails := List.find?_eq_none.mp found ref known
            simp [fails]
      · rw [List.find?_append, ih]

theorem Interchangeable.importLines_eq {models : String} {first second : List ImportRef}
    (same : Interchangeable models first second) (profile : Profile)
    (dependencies : List Dependency) :
    importLines profile dependencies models first =
      importLines profile dependencies models second := by
  have modules : modulesOf models first = modulesOf models second := by
    rw [modulesOf, same.modules, modulesOf]
  unfold importLines
  rw [ImportGroup.ofRefs_eq, ImportGroup.ofRefs_eq, modules, List.flatMap_map, List.flatMap_map]
  congr 1
  funext specifier
  refine ImportGroup.lines_congr profile dependencies rfl ?_ fun ref => ?_
  · show (distinctRefs _).find? _ = (distinctRefs _).find? _
    rw [find?_distinctRefs, find?_distinctRefs, same.find?_default]
  · simp [ofModule, refsOf, same.members]

/-! ## References that may be exchanged, but for repeats -/

/-- Lists of references that may be exchanged once repeats are added or left out. -/
def Rearranged (models : String) (first second : List ImportRef) : Prop :=
  ∃ raw raw', Interchangeable models raw raw' ∧
    distinctRefs first = distinctRefs raw ∧ distinctRefs second = distinctRefs raw'

theorem Interchangeable.rearranged {models : String} {first second : List ImportRef}
    (same : Interchangeable models first second) : Rearranged models first second :=
  ⟨first, second, same, rfl, rfl⟩

namespace Rearranged

variable {models : String} {first second third fourth : List ImportRef}

theorem refl (refs : List ImportRef) : Rearranged models refs refs :=
  (Interchangeable.refl refs).rearranged

theorem append (front : Rearranged models first second) (back : Rearranged models third fourth) :
    Rearranged models (first ++ third) (second ++ fourth) := by
  obtain ⟨raw, raw', same, left, right⟩ := front
  obtain ⟨raw₂, raw₂', same₂, left₂, right₂⟩ := back
  refine ⟨raw ++ raw₂, raw' ++ raw₂', same.append same₂, ?_, ?_⟩
  · rw [← distinctRefs_append_distinctRefs, left, left₂, distinctRefs_append_distinctRefs]
  · rw [← distinctRefs_append_distinctRefs, right, right₂, distinctRefs_append_distinctRefs]

theorem distinct (rearranged : Rearranged models first second) :
    Rearranged models (distinctRefs first) (distinctRefs second) := by
  obtain ⟨raw, raw', same, left, right⟩ := rearranged
  refine ⟨raw, raw', same, ?_, ?_⟩
  · rw [distinctRefs_distinctRefs, left]
  · rw [distinctRefs_distinctRefs, right]

theorem insertAll {set set' : ImportSet} (before : Rearranged models set.refs set'.refs)
    (added : Rearranged models first second) :
    Rearranged models (set.insertAll first).refs (set'.insertAll second).refs := by
  obtain ⟨raw, raw', same, left, right⟩ := before.append added
  refine ⟨raw, raw', same, ?_, ?_⟩
  · rw [distinctRefs_insertAll, left]
  · rw [distinctRefs_insertAll, right]

end Rearranged

/-- **Statements depend on the order of references only by module and by default.** -/
theorem Rearranged.importLines_eq {models : String} {first second : List ImportRef}
    (rearranged : Rearranged models first second) (profile : Profile)
    (dependencies : List Dependency) :
    importLines profile dependencies models first =
      importLines profile dependencies models second := by
  obtain ⟨raw, raw', same, left, right⟩ := rearranged
  have repeats : ∀ refs, importLines profile dependencies models (distinctRefs refs) =
      importLines profile dependencies models refs := by
    intro refs
    rw [importLines, ImportGroup.ofRefs_distinctRefs, importLines]
  rw [← repeats first, left, repeats, same.importLines_eq, ← repeats raw', ← right, repeats]

end ClientForge
