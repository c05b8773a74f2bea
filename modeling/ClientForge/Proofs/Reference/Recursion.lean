/-
# ClientForge.Proofs.Reference.Recursion -- what is left of recursive references

A reference that is met while it is being expanded is left as it stands, whatever it refers
to, and so is everything next to it.  `CutOff` says where that can happen: a map that the
walk comes by refers to something that has led back to it.  No other reference is left in a
resolved document (`resolve_leftover`).

What a walk can come by is said of the sources alone.  `Visited` are the values, each with
the folder that its references start from; `Leads` takes a reference, seen from a folder, to
those in the part that it stands for.  The files of a world are sources as well
(`Sources.within`), and they know everything that a resolver reads.

In a document that refers to no file, what is cut off lies on a cycle of its own references
(`CutOff.cycle`).
-/
import ClientForge.Proofs.Reference.Inlining

namespace ClientForge

set_option autoImplicit false

namespace Resolver

open Files

namespace Sources

/-- The values that a walk over the root comes by, and the folders that they are seen from. -/
inductive Visited (sources : Sources) (start : Path) : Path → Value → Prop
  | root : Visited sources start start sources.root
  | part {base : Path} {v w : Value} :
      Visited sources start base w → v.PartOf w → Visited sources start base v
  | target {base inner : Path} {entries : Entries} {reference : String} {part : Value} :
      Visited sources start base (.map entries) →
      Entries.get? "$ref" entries = some (.str reference) →
      sources.target? reference base = some (part, inner) →
      Visited sources start inner part

/-- One reference leads to another, each seen from a folder, if the part that it stands for
has that. -/
def Leads (sources : Sources) (here there : Path × String) : Prop :=
  ∃ part, sources.target? here.2 here.1 = some (part, there.1) ∧ part.Mentions there.2

/-- A map is come by that refers to what has led to it. -/
structure CutOff (sources : Sources) (start base : Path) (entries : Entries)
    (reference : String) : Prop where
  visited : sources.Visited start base (.map entries)
  refers : Entries.get? "$ref" entries = some (.str reference)
  again : ∃ outer whole, sources.Visited start outer whole ∧ whole.Mentions reference ∧
    Relation.TransGen sources.Leads (outer, reference) (base, reference)

/-- What a map refers to that is cut off, or that stands next to something that is. -/
def Leftover (sources : Sources) (start : Path) (v : Value) : Prop :=
  ∃ base entries reference inner, sources.CutOff start base entries reference ∧
    (Value.map inner).PartOf (.map entries) ∧ Entries.get? "$ref" inner = some v

/-- A reference that is being expanded has led to everything that a value mentions. -/
def LedTo (sources : Sources) (start base : Path) (v : Value) (reference : String) : Prop :=
  ∃ outer whole, sources.Visited start outer whole ∧ whole.Mentions reference ∧
    ∀ other, v.Mentions other → Relation.TransGen sources.Leads (outer, reference) (base, other)

section Walk

variable {sources : Sources} {start base inner : Path} {v w : Value} {entries : Entries}
  {reference : String}

theorem LedTo.part (led : sources.LedTo start base w reference) (part : v.PartOf w) :
    sources.LedTo start base v reference := by
  obtain ⟨outer, whole, visited, mentions, leads⟩ := led
  exact ⟨outer, whole, visited, mentions, fun other inside => leads other (inside.whole part)⟩

/-- Following a reference keeps what is being expanded ahead of what is come by, and puts
the reference there. -/
theorem LedTo.opened {part : Value} {active : List String}
    (visited : sources.Visited start base (.map entries))
    (refers : Entries.get? "$ref" entries = some (.str reference))
    (found : sources.target? reference base = some (part, inner))
    (led : ∀ a ∈ active, sources.LedTo start base (.map entries) a) :
    ∀ a ∈ reference :: active, sources.LedTo start inner part a := by
  have here : (Value.map entries).Mentions reference := ⟨entries, .refl, refers⟩
  have step : ∀ other, part.Mentions other →
      sources.Leads (base, reference) (inner, other) := fun other inside => ⟨part, found, inside⟩
  intro a member
  rcases List.mem_cons.mp member with rfl | older
  · exact ⟨base, .map entries, visited, here, fun other inside => .single (step other inside)⟩
  · obtain ⟨outer, whole, outerVisited, mentions, leads⟩ := led a older
    exact ⟨outer, whole, outerVisited, mentions, fun other inside =>
      (leads reference here).tail (step other inside)⟩

end Walk

end Sources

/-- What is left after a walk: references that are cut off, and those next to them. -/
theorem Expands.leftover {sources : Sources} {start base : Path} {active : List String}
    {v w : Value} (expands : Expands sources base active v w)
    (visited : sources.Visited start base v)
    (led : ∀ a ∈ active, sources.LedTo start base v a) :
    w.EveryReference (sources.Leftover start) := by
  induction expands with
  | atom a => exact Value.everyMap_atom a
  | @list _ _ items items' length _ ih =>
      have each : List.Forall₂ (fun _ w => w.EveryReference (sources.Leftover start))
          items items' := by
        refine List.forall₂_iff_zip.mpr ⟨length, fun {v w} member => ?_⟩
        have part : v.PartOf (.list items) := .item (mem_of_mem_zip member) .refl
        exact ih v w member (.part visited part) fun a among => (led a among).part part
      refine (Value.everyMap_list_iff _).mpr fun w member => ?_
      obtain ⟨v, -, left⟩ := exists_of_mem_right each member
      exact left
  | @map _ _ entries entries' none keys _ ih =>
      have each : Entries.Pointwise (fun _ w => w.EveryReference (sources.Leftover start))
          entries entries' := by
        refine Entries.pointwise_iff.mpr ⟨keys, fun entry entry' member => ?_⟩
        have part : entry.2.PartOf (.map entries) := .entry (mem_of_mem_zip member) .refl
        exact ih entry entry' member (.part visited part) fun a among => (led a among).part part
      refine (Value.everyMap_map_iff _).mpr ⟨fun x refers => ?_, fun entry' member => ?_⟩
      · rw [each.get?_none none] at refers
        cases refers
      · obtain ⟨entry, -, -, left⟩ := each.right member
        exact left
  | @active base _ entries reference refers active =>
      -- the map stays as it is, so all that it holds is left with it
      obtain ⟨outer, whole, outerVisited, mentions, leads⟩ := led reference active
      have again := leads reference ⟨entries, .refl, refers⟩
      have cut : sources.CutOff start base entries reference :=
        ⟨visited, refers, outer, whole, outerVisited, mentions, again⟩
      intro inner part x found
      exact ⟨base, entries, reference, inner, cut, part, found⟩
  | alone refers _ _ found _ ih =>
      exact ih (.target visited refers found) (Sources.LedTo.opened visited refers found led)
  | @merged _ _ _ entries fields beside reference part refers _ _ found _ keys _ ih each =>
      have opened := ih (.target visited refers found)
        (Sources.LedTo.opened visited refers found led)
      obtain ⟨target, old⟩ := (Value.everyMap_map_iff _).mp opened
      have new : Entries.Pointwise (fun _ w => w.EveryReference (sources.Leftover start))
          (siblings entries) beside := by
        refine Entries.pointwise_iff.mpr ⟨keys, fun entry entry' member => ?_⟩
        have there := mem_of_mem_siblings (mem_of_mem_zip member)
        have part : entry.2.PartOf (.map entries) := .entry there .refl
        exact each entry entry' member (.part visited part) fun a among => (led a among).part part
      refine (Value.everyMap_map_iff _).mpr ⟨fun x refers => ?_,
        Value.everyMap_putAll old fun entry' member => ?_⟩
      · rw [Entries.get?_putAll_of_none (get?_beside keys)] at refers
        exact target x refers
      · obtain ⟨entry, -, -, left⟩ := new.right member
        exact left

/-! ## Sources that are files -/

/-- A document and all files of a table. -/
def Sources.within (files : FileTable) (document : Value) : Sources where
  root := document
  workdir := files.workdir
  document? place :=
    match files.readStructured (.ofPlace place) with
    | .ok (.map entries) => some entries
    | _ => none

/-- What a resolver reads from the files is in them. -/
theorem Sources.Know.after {files : FileTable} {document : Value} {r s : Resolver}
    (know : (within files document).Know files r) (grown : Extends files r s) :
    (within files document).Know files s where
  root := know.root.trans grown.document.symm
  workdir := rfl
  cache := by
    refine grown.keeps (I := fun t => ∀ place entries, t.cache.lookup place = some entries →
      (within files document).document? place = some entries) ?_ know.cache
    rintro t u ⟨-, new, read⟩ known place entries found
    rw [List.lookup_append] at found
    cases before : t.cache.lookup place with
    | some old =>
        rw [before] at found
        cases found
        exact known place entries before
    | none =>
        rw [before, Option.none_or, List.lookup_cons] at found
        split at found
        · rename_i same
          cases found
          simp [within, beq_iff_eq.mp same, read]
        · cases found

/-- A resolver that starts with nothing reads nothing but files. -/
theorem Sources.within_know {files : FileTable} {r s : Resolver} (fresh : r.cache = [])
    (grown : Extends files r s) : (within files r.document).Know files s := by
  have start : (within files r.document).Know files r := by
    refine ⟨rfl, rfl, fun place entries found => ?_⟩
    rw [fresh] at found
    cases found
  exact start.after grown

/-- **What is left in a resolved document.**  Every reference in it is cut off, or stands
next to one that is. -/
theorem resolve_leftover {files : FileTable} {document w : Value} {base : Option Path}
    {s : Resolver} (run : resolve files (.start document base) = (.ok w, s)) :
    w.EveryReference
      ((Sources.within files document).Leftover (base.getD ⟨false, []⟩)) := by
  have grown : Extends files (.start document base) s :=
    (expand_extends (openReference_extends files _) _ _ _).of_run run
  have know : (Sources.within files document).Know files s := Sources.within_know rfl grown
  have expands := expand_eq_ok run know
  exact expands.leftover .root fun a member => absurd member List.not_mem_nil

/-! ## Documents that refer to themselves only -/

namespace Sources

section Local

variable {sources : Sources} {start base : Path} {v : Value}

/-- A walk comes by no other references than those of the document. -/
theorem Visited.mentions (onlyLocal : OnlyLocal sources.root)
    (visited : sources.Visited start base v) {reference : String}
    (mentions : v.Mentions reference) : sources.root.Mentions reference := by
  induction visited generalizing reference with
  | root => exact mentions
  | part _ part ih => exact ih (mentions.whole part)
  | target _ refers found ih =>
      have here := ih ⟨_, .refl, refers⟩
      obtain ⟨-, raw, there, rfl⟩ := target?_of_local (onlyLocal _ here) found
      exact (mentions_tagged mentions).whole (localPart?_part there)

/-- What holds of all maps of the document, named or not, holds of those that a walk comes
by. -/
theorem Visited.everyMap {P : Entries → Prop} (onlyLocal : OnlyLocal sources.root)
    (named : ∀ entries name, P entries → P (entries ++ [(.str schemaNameKey, .str name)]))
    (every : sources.root.EveryMap P) (visited : sources.Visited start base v) :
    v.EveryMap P := by
  induction visited with
  | root => exact every
  | part _ part ih => exact ih.part part
  | @target _ _ _ reference _ outer refers found ih =>
      have mentions := outer.mentions onlyLocal ⟨_, .refl, refers⟩
      obtain ⟨-, raw, there, rfl⟩ := target?_of_local (onlyLocal _ mentions) found
      have inside := every.part (localPart?_part there)
      rcases tagged_eq reference raw with same | ⟨entries, rfl, -, -, same⟩
      · rwa [same]
      · obtain ⟨here, within⟩ := (Value.everyMap_map_iff entries).mp inside
        rw [same]
        refine (Value.everyMap_map_iff _).mpr ⟨named entries _ here, fun entry member => ?_⟩
        rcases List.mem_append.mp member with old | new
        · exact within entry old
        · rw [List.mem_singleton.mp new]
          exact Value.everyMap_atom _

theorem Leads.leadsTo {here there : Path × String} (isLocal : IsLocal here.2)
    (leads : sources.Leads here there) : LeadsTo sources.root here.2 there.2 := by
  obtain ⟨part, found, mentions⟩ := leads
  obtain ⟨-, raw, there, rfl⟩ := target?_of_local isLocal found
  exact ⟨raw, there, mentions_tagged mentions⟩

/-- What is cut off leads back to itself. -/
theorem CutOff.cycle {entries : Entries} {reference : String}
    (onlyLocal : OnlyLocal sources.root) (cut : sources.CutOff start base entries reference) :
    Relation.TransGen (LeadsTo sources.root) reference reference := by
  obtain ⟨outer, whole, visited, mentions, again⟩ := cut.again
  have here : sources.root.Mentions reference := visited.mentions onlyLocal mentions
  have follow : ∀ there, Relation.TransGen sources.Leads (outer, reference) there →
      Relation.TransGen (LeadsTo sources.root) reference there.2 := by
    intro there leads
    induction leads with
    | single step => exact .single (step.leadsTo (onlyLocal _ here))
    | tail _ step ih =>
        obtain ⟨_, -, part, found, inside⟩ := Relation.TransGen.tail'_iff.mp ih
        have mentioned := inside.whole (localPart?_part found)
        exact ih.tail (step.leadsTo (onlyLocal _ mentioned))
  exact follow _ again

end Local

end Sources

end Resolver

end ClientForge
