/-
# ClientForge.Proofs.Reference.Inlining -- what resolving means where nothing is recursive

`Inlines document v w` says what it is to inline the references of `v`: everything keeps its
place and its order, a map that refers to a part of `document` becomes that part, named if it
is a component schema and inlined in turn, and what stands next to a reference is set on the
part.  It knows nothing of references that are being expanded.

A document is `Acyclic` if no reference leads back to itself through the parts that
references lead to.  There the cut-off of the resolver is never reached: whatever is being
expanded leads to all that the value at hand mentions.  So the resolver inlines, succeeds
wherever there is an inlining, and leaves no reference behind (`resolve_acyclic`).
-/
import ClientForge.Proofs.Reference.Expansion
import ClientForge.Proofs.Reference.Termination

namespace ClientForge.Resolver

set_option autoImplicit false

open Files

/-- One reference leads to another if the part of the document that it stands for has it. -/
def LeadsTo (document : Value) (reference other : String) : Prop :=
  ∃ part, localPart? document reference = some part ∧ part.Mentions other

/-- No reference leads back to itself. -/
def Acyclic (document : Value) : Prop :=
  ∀ reference, ¬ Relation.TransGen (LeadsTo document) reference reference

/-- What inlining the references of a value into the document gives. -/
inductive Inlines (document : Value) : Value → Value → Prop
  | atom (a : Scalar) : Inlines document (.atom a) (.atom a)
  | list {items items' : List Value} :
      items.length = items'.length →
      (∀ v w, (v, w) ∈ items.zip items' → Inlines document v w) →
      Inlines document (.list items) (.list items')
  | map {entries entries' : Entries} :
      Entries.get? "$ref" entries = none →
      entries.map Prod.fst = entries'.map Prod.fst →
      (∀ entry entry', (entry, entry') ∈ entries.zip entries' →
        Inlines document entry.2 entry'.2) →
      Inlines document (.map entries) (.map entries')
  | alone {entries : Entries} {reference : String} {part w : Value} :
      Entries.get? "$ref" entries = some (.str reference) →
      entries.length = 1 →
      localPart? document reference = some part →
      Inlines document (tagged reference part) w →
      Inlines document (.map entries) w
  | merged {entries fields beside : Entries} {reference : String} {part : Value} :
      Entries.get? "$ref" entries = some (.str reference) →
      entries.length ≠ 1 →
      localPart? document reference = some part →
      Inlines document (tagged reference part) (.map fields) →
      (siblings entries).map Prod.fst = beside.map Prod.fst →
      (∀ entry entry', (entry, entry') ∈ (siblings entries).zip beside →
        Inlines document entry.2 entry'.2) →
      Inlines document (.map entries) (.map (Entries.putAll fields beside))

/-! ## Nothing is cut off -/

/-- What holds of a value while references are being expanded: all of them lead to everything
that the value mentions, and it mentions local references only. -/
structure Clear (document : Value) (active : List String) (v : Value) : Prop where
  onlyLocal : OnlyLocal v
  leads : ∀ a ∈ active, ∀ x, v.Mentions x → Relation.TransGen (LeadsTo document) a x

namespace Clear

variable {document v w raw : Value} {active : List String} {reference : String}

theorem start (onlyLocal : OnlyLocal v) : Clear document [] v :=
  ⟨onlyLocal, fun _ member => absurd member List.not_mem_nil⟩

theorem part (clear : Clear document active v) (part : w.PartOf v) : Clear document active w :=
  ⟨fun x mentions => clear.onlyLocal x (mentions.whole part),
    fun a member x mentions => clear.leads a member x (mentions.whole part)⟩

/-- Opening a reference keeps it: the reference leads to what its part mentions. -/
theorem opened (clear : Clear document active v) (rootLocal : OnlyLocal document)
    (mentions : v.Mentions reference) (found : localPart? document reference = some raw) :
    Clear document (reference :: active) (tagged reference raw) := by
  refine ⟨fun x inner => rootLocal x ((mentions_tagged inner).whole (localPart?_part found)),
    fun a member x inner => ?_⟩
  have edge : LeadsTo document reference x := ⟨raw, found, mentions_tagged inner⟩
  rcases List.mem_cons.mp member with rfl | older
  · exact .single edge
  · exact (clear.leads a older reference mentions).tail edge

/-- Where no reference leads back to itself, what is mentioned is not being expanded. -/
theorem inactive (clear : Clear document active v) (acyclic : Acyclic document)
    (mentions : v.Mentions reference) : reference ∉ active :=
  fun member => acyclic reference (clear.leads reference member reference mentions)

end Clear

theorem Expands.inlines {sources : Sources} {base : Path} {active : List String} {v w : Value}
    (expands : Expands sources base active v w) (acyclic : Acyclic sources.root)
    (rootLocal : OnlyLocal sources.root) (clear : Clear sources.root active v) :
    Inlines sources.root v w := by
  induction expands with
  | atom a => exact .atom a
  | list length _ ih =>
      refine .list length fun v w member => ih v w member (clear.part ?_)
      exact .item (mem_of_mem_zip member) .refl
  | map free keys _ ih =>
      refine .map free keys fun entry entry' member => ih entry entry' member (clear.part ?_)
      exact .entry (mem_of_mem_zip member) .refl
  | active refers active => exact absurd active (clear.inactive acyclic ⟨_, .refl, refers⟩)
  | alone refers inactive single found _ ih =>
      have mentions : Value.Mentions _ _ := ⟨_, .refl, refers⟩
      obtain ⟨rfl, raw, here, rfl⟩ := target?_of_local (clear.onlyLocal _ mentions) found
      exact .alone refers single here (ih (clear.opened rootLocal mentions here))
  | merged refers inactive several found _ keys _ ih each =>
      have mentions : Value.Mentions _ _ := ⟨_, .refl, refers⟩
      obtain ⟨rfl, raw, here, rfl⟩ := target?_of_local (clear.onlyLocal _ mentions) found
      refine .merged refers several here (ih (clear.opened rootLocal mentions here)) keys ?_
      refine fun entry entry' member => each entry entry' member (clear.part ?_)
      exact .entry (mem_of_mem_siblings (mem_of_mem_zip member)) .refl

/-! ## An inlining is reached -/

section Reached

variable {openRef : String → Path → Expanding Value} {base : Path} {r : Resolver}

theorem expandItems_eq {items items' : List Value}
    (each : List.Forall₂ (fun v w => expand openRef base v r = (.ok w, r)) items items') :
    expandItems openRef base items r = (.ok items', r) := by
  induction each with
  | nil => rfl
  | cons first _ ih =>
      rw [expandItems]
      exact (bind_ok first _).trans (bind_ok ih _)

theorem expandEntries_eq {entries entries' : Entries}
    (each : Entries.Pointwise (fun v w => expand openRef base v r = (.ok w, r))
      entries entries') :
    expandEntries openRef base entries r = (.ok entries', r) := by
  induction each with
  | nil => rfl
  | @cons entry entry' _ _ first _ ih =>
      obtain ⟨k, v⟩ := entry
      obtain ⟨k', v'⟩ := entry'
      obtain ⟨rfl, first⟩ := first
      rw [expandEntries]
      exact (bind_ok first _).trans (bind_ok ih _)

theorem expandSiblings_eq {entries beside : Entries} (fields : Entries)
    (each : Entries.Pointwise (fun v w => expand openRef base v r = (.ok w, r))
      (siblings entries) beside) :
    expandSiblings openRef base fields entries r = (.ok (Entries.putAll fields beside), r) := by
  induction entries generalizing fields beside with
  | nil =>
      cases each
      rfl
  | cons entry rest ih =>
      obtain ⟨k, v⟩ := entry
      rw [expandSiblings]
      by_cases same : k = .str "$ref"
      · rw [if_pos same]
        refine ih fields ?_
        simpa [siblings, same] using each
      · rw [if_neg same]
        have kept : siblings ((k, v) :: rest) = (k, v) :: siblings rest := by
          simp [siblings, same]
        rw [kept] at each
        obtain ⟨entry', others, ⟨rfl, first⟩, later, rfl⟩ := List.forall₂_cons_left_iff.mp each
        exact (bind_ok first _).trans (ih _ later)

end Reached

theorem openFully_of_local {files : FileTable} {reference : String} {base : Path}
    {r : Resolver} {part w : Value} (found : localPart? r.document reference = some part)
    (expands : expand (openFully files) base (tagged reference part)
        { r with active := reference :: r.active } =
      (.ok w, { r with active := reference :: r.active })) :
    openFully files reference base r = (.ok w, r) := by
  rw [openFully_eq, openOnce]
  refine (bind_ok (target_of_local found) _).trans ?_
  exact (withActive_apply reference _ r).trans (by rw [expands]; rfl)

/-- The resolver gets to every inlining, and knows no more than before. -/
theorem Inlines.expand_eq {files : FileTable} {document v w : Value}
    (inlines : Inlines document v w) (acyclic : Acyclic document)
    (rootLocal : OnlyLocal document) (base : Path) (r : Resolver)
    (same : r.document = document) (clear : Clear document r.active v) :
    expand (openFully files) base v r = (.ok w, r) := by
  induction inlines generalizing r with
  | atom a => rfl
  | list length _ ih =>
      rw [expand_list]
      refine bind_ok (expandItems_eq ?_) _
      refine List.forall₂_iff_zip.mpr ⟨length, fun member => ih _ _ member r same ?_⟩
      exact clear.part (.item (mem_of_mem_zip member) .refl)
  | map free keys _ ih =>
      rw [expand_map_of_none _ _ free]
      refine bind_ok (expandEntries_eq ?_) _
      refine Entries.pointwise_iff.mpr ⟨keys, fun entry entry' member => ?_⟩
      exact ih _ _ member r same (clear.part (.entry (mem_of_mem_zip member) .refl))
  | alone refers single here _ ih =>
      have mentions : Value.Mentions _ _ := ⟨_, .refl, refers⟩
      rw [expand_map_of_inactive _ _ refers (clear.inactive acyclic mentions)]
      have opening := openFully_of_local (same ▸ here)
        (ih _ same (clear.opened rootLocal mentions here))
      refine (bind_ok opening _).trans ?_
      rw [withSiblings_single _ _ single]
      rfl
  | merged refers several here _ keys _ ih each =>
      have mentions : Value.Mentions _ _ := ⟨_, .refl, refers⟩
      rw [expand_map_of_inactive _ _ refers (clear.inactive acyclic mentions)]
      have opening := openFully_of_local (same ▸ here)
        (ih _ same (clear.opened rootLocal mentions here))
      refine (bind_ok opening _).trans ?_
      rw [withSiblings_map _ _ several]
      refine bind_ok (expandSiblings_eq _ ?_) _
      refine Entries.pointwise_iff.mpr ⟨keys, fun entry entry' member => ?_⟩
      refine each _ _ member r same (clear.part ?_)
      exact .entry (mem_of_mem_siblings (mem_of_mem_zip member)) .refl

/-! ## What is left of references -/

/-- An inlining has no reference left. -/
theorem Inlines.referenceFree {document v w : Value} (inlines : Inlines document v w) :
    w.ReferenceFree := by
  induction inlines with
  | atom a => exact Value.everyMap_atom a
  | list length _ ih =>
      have each := List.forall₂_iff_zip (R := fun _ w : Value => w.ReferenceFree)
        |>.mpr ⟨length, fun member => ih _ _ member⟩
      refine (Value.everyMap_list_iff _).mpr fun w member => ?_
      obtain ⟨v, -, free⟩ := exists_of_mem_right each member
      exact free
  | map free keys _ ih =>
      have each := Entries.pointwise_iff (R := fun _ w => w.ReferenceFree) |>.mpr ⟨keys, ih⟩
      refine (Value.everyMap_map_iff _).mpr ⟨?_, fun entry' member => ?_⟩
      · exact each.get?_none free
      · obtain ⟨entry, -, -, free⟩ := each.right member
        exact free
  | alone _ _ _ _ ih => exact ih
  | merged _ _ _ _ keys _ ih each =>
      have each := Entries.pointwise_iff (R := fun _ w => w.ReferenceFree) |>.mpr ⟨keys, each⟩
      obtain ⟨none, old⟩ := (Value.everyMap_map_iff _).mp ih
      refine (Value.everyMap_map_iff _).mpr ⟨?_, Value.everyMap_putAll old fun entry' member => ?_⟩
      · rw [Entries.get?_putAll_of_none (get?_beside keys), none]
      · obtain ⟨entry, -, -, free⟩ := each.right member
        exact free

/-- A value without references stays as it is. -/
theorem expand_of_referenceFree (openRef : String → Path → Expanding Value) (base : Path)
    {v : Value} (free : v.ReferenceFree) (r : Resolver) :
    expand openRef base v r = (.ok v, r) := by
  induction v with
  | atom a => rfl
  | list items ih =>
      have each := (Value.everyMap_list_iff _).mp free
      rw [expand_list]
      refine bind_ok (expandItems_eq ?_) _
      exact List.forall₂_same.mpr fun v member => ih v member (each v member)
  | map entries ih =>
      obtain ⟨none, each⟩ := (Value.everyMap_map_iff _).mp free
      rw [expand_map_of_none _ _ none]
      refine bind_ok (expandEntries_eq ?_) _
      exact List.forall₂_same.mpr fun entry member =>
        ⟨rfl, ih entry member (each entry member)⟩

/-- **Resolving is inlining.**  A document without references stays as it is.  Where no
reference leads back to itself and all are local, a resolver succeeds exactly with the
inlining of its document and learns nothing; no reference is left in the result, so any
resolver leaves the result as it is. -/
theorem resolve_acyclic (files : FileTable) (r : Resolver) :
    (r.document.ReferenceFree → resolve files r = (.ok r.document, r)) ∧
      (r.active = [] → OnlyLocal r.document → Acyclic r.document → ∀ w s,
        (resolve files r = (.ok w, s) ↔ s = r ∧ Inlines r.document r.document w) ∧
        (resolve files r = (.ok w, s) → w.ReferenceFree ∧
          ∀ (others : FileTable) (again : Resolver), again.document = w →
            resolve others again = (.ok w, again))) := by
  have identity : ∀ (others : FileTable) (again : Resolver), again.document.ReferenceFree →
      resolve others again = (.ok again.document, again) :=
    fun _ again free => expand_of_referenceFree _ _ free again
  refine ⟨identity files r, fun idle onlyLocal acyclic w s => ?_⟩
  have clear : Clear r.document r.active r.document := idle ▸ Clear.start onlyLocal
  have sound : ∀ s, resolve files r = (.ok w, s) → Inlines r.document r.document w := by
    intro s run
    obtain ⟨sources, root, expands⟩ := resolve_eq_ok run
    rw [← root] at acyclic onlyLocal clear ⊢
    rw [← root] at expands
    exact expands.inlines acyclic onlyLocal clear
  have complete : Inlines r.document r.document w → resolve files r = (.ok w, r) := by
    intro inlines
    rw [resolve_eq_expand (openFully_eq files)]
    exact inlines.expand_eq acyclic onlyLocal _ r rfl clear
  refine ⟨⟨fun run => ?_, fun reached => ?_⟩, fun run => ?_⟩
  · have inlines := sound s run
    exact ⟨(Prod.mk.inj (run.symm.trans (complete inlines))).2, inlines⟩
  · rw [reached.1]
    exact complete reached.2
  · have free := (sound s run).referenceFree
    refine ⟨free, fun others again same => ?_⟩
    rw [← same] at free ⊢
    exact identity others again free

/-- References that lead downwards only lead back nowhere. -/
theorem acyclic_of_rank {document : Value} (rank : String → Nat)
    (descends : ∀ reference part other, document.Mentions reference →
      localPart? document reference = some part → part.Mentions other →
        rank other < rank reference) : Acyclic document := by
  have edge : ∀ a b, document.Mentions a → LeadsTo document a b →
      document.Mentions b ∧ rank b < rank a := by
    rintro a b mentioned ⟨part, found, mentions⟩
    exact ⟨mentions.whole (localPart?_part found), descends a part b mentioned found mentions⟩
  have path : ∀ a b, Relation.TransGen (LeadsTo document) a b → document.Mentions a →
      document.Mentions b ∧ rank b < rank a := by
    intro a b leads mentioned
    induction leads with
    | single step => exact edge _ _ mentioned step
    | tail _ step ih =>
        obtain ⟨between, less⟩ := ih
        obtain ⟨there, less'⟩ := edge _ _ between step
        exact ⟨there, less'.trans less⟩
  intro reference leads
  obtain ⟨last, -, part, found, mentions⟩ := Relation.TransGen.tail'_iff.mp leads
  have mentioned := mentions.whole (localPart?_part found)
  exact lt_irrefl _ (path reference reference leads mentioned).2

/-- An alias with a sibling, and a schema that uses it. -/
def aliasSchemas : Resolver :=
  .start (schemaDocument [
    ("Owner", .object [("properties", .object [("pet", schemaNode "Pet" [])])]),
    ("Pet", schemaNode "Animal" [("nullable", .bool true)]),
    ("Animal", .object [("type", .str "object")])]) none

theorem resolve_acyclic_alias :
    ∃ w, resolve ⟨[], [], []⟩ aliasSchemas = (.ok w, aliasSchemas) ∧
      Inlines aliasSchemas.document aliasSchemas.document w ∧
      resolve ⟨[], [], []⟩ (.start w none) = (.ok w, .start w none) := by
  have run : ∃ w, resolve ⟨[], [], []⟩ aliasSchemas = (.ok w, aliasSchemas) := ⟨_, rfl⟩
  obtain ⟨w, run⟩ := run
  have mentioned : ∀ reference, aliasSchemas.document.Mentions reference →
      reference = schemaReference "Pet" ∨ reference = schemaReference "Animal" := by
    intro reference mentions
    have known : reference ∈ [schemaReference "Pet", schemaReference "Animal"] :=
      mem_references mentions
    simpa using known
  have onlyLocal : OnlyLocal aliasSchemas.document := by
    intro reference mentions
    rcases mentioned reference mentions with rfl | rfl
    · exact isLocal_schemaReference (by decide)
    · exact isLocal_schemaReference (by decide)
  have acyclic : Acyclic aliasSchemas.document := by
    refine acyclic_of_rank (fun reference => if reference = schemaReference "Pet" then 1 else 0) ?_
    intro reference part other mentions found inner
    rcases mentioned reference mentions with rfl | rfl
    · have here : some (schemaNode "Animal" [("nullable", .bool true)]) = some part := found
      cases here
      have known : other ∈ [schemaReference "Animal"] := mem_references inner
      rw [List.mem_singleton.mp known]
      decide
    · have here : some (Value.object [("type", .str "object")]) = some part := found
      cases here
      cases mem_references inner
  obtain ⟨reached, left⟩ :=
    (resolve_acyclic ⟨[], [], []⟩ aliasSchemas).2 rfl onlyLocal acyclic w aliasSchemas
  exact ⟨w, run, (reached.mp run).2, (left run).2 _ _ rfl⟩

end ClientForge.Resolver
