/-
# ClientForge.Proofs.Data.Part -- the parts of a document

A document is walked by its parts: `PartOf v w` says that `v` stands somewhere in `w`, or is
`w` itself.  What is said of a document as a whole is mostly said of its maps:

* `EveryMap P v` -- each map that is a part of `v` satisfies `P`;
* `ReferenceFree v` -- no map in `v` has the key `$ref`;
* `DistinctKeys v` -- no map in `v` has the same key twice, which is what makes a list of
  entries a map; `get?_of_mem` is where it is used.

`Value.induction` is induction over a document with the items of a list and the values of a
map at hand.  The laws of `get?`, `put` and `putAll` under string keys stand in front: a
string is the same key as itself only (`same_str`), so writing a key is seen under that key
and nowhere else (`get?_put`).  Whether two documents are the same can be computed.
-/
import ClientForge.Data.Value
import Mathlib.Data.List.Forall2

namespace ClientForge

set_option autoImplicit false

theorem mem_of_mem_zip {α β : Type} {xs : List α} {ys : List β} {x : α} {y : β}
    (member : (x, y) ∈ xs.zip ys) : x ∈ xs := (List.of_mem_zip member).1

theorem exists_mem_zip {α β : Type} {xs : List α} {ys : List β} {x : α}
    (length : xs.length = ys.length) (member : x ∈ xs) : ∃ y, (x, y) ∈ xs.zip ys := by
  obtain ⟨i, left, rfl⟩ := List.getElem_of_mem member
  have right : i < ys.length := length ▸ left
  have both : i < (xs.zip ys).length := by
    rw [List.length_zip]
    omega
  refine ⟨ys[i], ?_⟩
  rw [← List.getElem_zip]
  exact List.getElem_mem both

/-- Every item on the right is related to one on the left. -/
theorem exists_of_mem_right {α β : Type} {R : α → β → Prop} {xs : List α} {ys : List β}
    (each : List.Forall₂ R xs ys) {y : β} (member : y ∈ ys) : ∃ x ∈ xs, R x y := by
  induction each with
  | nil => cases member
  | cons first _ ih =>
      rcases List.mem_cons.mp member with rfl | later
      · exact ⟨_, List.mem_cons_self, first⟩
      · obtain ⟨x, found, related⟩ := ih later
        exact ⟨x, List.mem_cons_of_mem _ found, related⟩

/-- Where every item is related to something, so is the list, item by item. -/
theorem exists_forall₂ {α β : Type} {R : α → β → Prop} {xs : List α} (each : ∀ x ∈ xs, ∃ y, R x y) :
    ∃ ys, List.Forall₂ R xs ys := by
  induction xs with
  | nil => exact ⟨[], .nil⟩
  | cons x rest ih =>
      obtain ⟨y, first⟩ := each x List.mem_cons_self
      obtain ⟨ys, later⟩ := ih fun z member => each z (List.mem_cons_of_mem _ member)
      exact ⟨y :: ys, .cons first later⟩

/-- Two lists that are related to one in the middle. -/
theorem forall₂_comp {α β γ : Type} {R : α → β → Prop} {S : β → γ → Prop} {T : α → γ → Prop}
    (both : ∀ x y z, R x y → S y z → T x z) {xs : List α} {ys : List β} {zs : List γ}
    (first : List.Forall₂ R xs ys) (second : List.Forall₂ S ys zs) : List.Forall₂ T xs zs := by
  induction first generalizing zs with
  | nil =>
      cases second
      exact .nil
  | cons left _ ih =>
      cases second with
      | cons right rest => exact .cons (both _ _ _ left right) (ih rest)

/-- What holds of every two items of a list holds of those that they are related to. -/
theorem pairwise_of_forall₂ {α β : Type} {R : α → β → Prop} {P : α → α → Prop}
    {Q : β → β → Prop} (carry : ∀ x x' y y', R x y → R x' y' → P x x' → Q y y') {xs : List α}
    {ys : List β} (each : List.Forall₂ R xs ys) (apart : xs.Pairwise P) : ys.Pairwise Q := by
  induction each with
  | nil => exact .nil
  | cons first rest ih =>
      obtain ⟨here, later⟩ := List.pairwise_cons.mp apart
      refine .cons (fun y member => ?_) (ih later)
      obtain ⟨x, there, related⟩ := exists_of_mem_right rest member
      exact carry _ x _ y first related (here x there)

theorem Scalar.same_str (k : Scalar) (s : String) : k.same (.str s) = true ↔ k = .str s := by
  cases k <;> simp [Scalar.same, Scalar.toInt?]

theorem Scalar.str_same (s : String) (k : Scalar) : (Scalar.str s).same k = true ↔ k = .str s := by
  rw [eq_comm (a := k)]
  cases k <;> simp [Scalar.same, Scalar.toInt?]

namespace Entries

/-! ## Entries under string keys -/

theorem get?_append (key : String) (a b : Entries) :
    get? key (a ++ b) = (get? key a).or (get? key b) := by
  induction a with
  | nil => simp
  | cons entry rest ih =>
      obtain ⟨k, v⟩ := entry
      by_cases h : k = .str key
      · simp [get?, h]
      · simp [get?, h, ih]

theorem mem_of_get? {key : String} {entries : Entries} {v : Value}
    (found : get? key entries = some v) : (.str key, v) ∈ entries := by
  induction entries with
  | nil => simp at found
  | cons entry rest ih =>
      obtain ⟨k, w⟩ := entry
      by_cases h : k = .str key
      · simp_all [get?]
      · rw [get?_cons_of_ne h] at found
        exact List.mem_cons_of_mem _ (ih found)

theorem get?_eq_none_iff (key : String) (entries : Entries) :
    get? key entries = none ↔ ∀ entry ∈ entries, entry.1 ≠ .str key := by
  induction entries with
  | nil => simp
  | cons entry rest ih =>
      obtain ⟨k, v⟩ := entry
      by_cases h : k = .str key
      · simp [get?, h]
      · rw [get?_cons_of_ne h, ih]
        simp [h]

/-- Where keys are distinct, every entry is found. -/
theorem get?_of_mem {key : String} {entries : Entries} {v : Value}
    (distinct : (entries.map Prod.fst).Nodup) (member : (.str key, v) ∈ entries) :
    get? key entries = some v := by
  induction entries with
  | nil => simp at member
  | cons entry rest ih =>
      obtain ⟨k, w⟩ := entry
      rw [List.map_cons, List.nodup_cons] at distinct
      rcases List.mem_cons.mp member with same | later
      · cases same
        exact get?_cons_self key v rest
      · have other : k ≠ .str key := by
          rintro rfl
          exact distinct.1 (List.mem_map.mpr ⟨_, later, rfl⟩)
        rw [get?_cons_of_ne other]
        exact ih distinct.2 later

/-- A written key is seen under that key, and nowhere else. -/
theorem get?_put (key : String) (k : Scalar) (v : Value) (entries : Entries) :
    get? key (put k v entries) = if k = .str key then some v else get? key entries := by
  induction entries with
  | nil => simp [put, get?]
  | cons entry rest ih =>
      obtain ⟨k', v'⟩ := entry
      rw [put]
      by_cases same : k'.same k = true
      · rw [if_pos same]
        by_cases h : k = .str key
        · subst h
          have h' := (Scalar.same_str k' key).mp same
          simp [get?, h']
        · have h' : k' ≠ .str key := by
            rintro rfl
            exact h ((Scalar.str_same key k).mp same)
          rw [if_neg h, get?_cons_of_ne h', get?_cons_of_ne h']
      · rw [if_neg same]
        by_cases h' : k' = .str key
        · have h : k ≠ .str key := by
            rintro rfl
            exact same ((Scalar.same_str k' key).mpr h')
          rw [if_neg h, h', get?_cons_self, get?_cons_self]
        · rw [get?_cons_of_ne h', ih, get?_cons_of_ne h']

theorem mem_put {k : Scalar} {v : Value} {entries : Entries} {entry : Scalar × Value}
    (member : entry ∈ put k v entries) :
    entry ∈ entries ∨ entry.2 = v ∧ (entry.1 = k ∨ entry.1.same k = true) := by
  induction entries with
  | nil => simp_all [put]
  | cons first rest ih =>
      obtain ⟨k', v'⟩ := first
      rw [put] at member
      split at member
      · rcases List.mem_cons.mp member with rfl | old
        · exact Or.inr ⟨rfl, Or.inr ‹_›⟩
        · exact Or.inl (List.mem_cons_of_mem _ old)
      · rcases List.mem_cons.mp member with rfl | later
        · exact Or.inl List.mem_cons_self
        · rcases ih later with old | new
          · exact Or.inl (List.mem_cons_of_mem _ old)
          · exact Or.inr new

theorem exists_put_old (k : Scalar) (v : Value) {entries : Entries} {entry : Scalar × Value}
    (member : entry ∈ entries) : ∃ kept ∈ put k v entries, kept.1 = entry.1 := by
  induction entries with
  | nil => cases member
  | cons first rest ih =>
      obtain ⟨k', v'⟩ := first
      rw [put]
      split
      · rcases List.mem_cons.mp member with rfl | later
        · exact ⟨(k', v), List.mem_cons_self, rfl⟩
        · exact ⟨entry, List.mem_cons_of_mem _ later, rfl⟩
      · rcases List.mem_cons.mp member with rfl | later
        · exact ⟨(k', v'), List.mem_cons_self, rfl⟩
        · obtain ⟨kept, there, same⟩ := ih later
          exact ⟨kept, List.mem_cons_of_mem _ there, same⟩

theorem exists_put_new (k : Scalar) (v : Value) (entries : Entries) :
    ∃ written ∈ put k v entries, written.1 = k ∨ written.1.same k = true := by
  induction entries with
  | nil => exact ⟨(k, v), List.mem_singleton_self _, Or.inl rfl⟩
  | cons first rest ih =>
      obtain ⟨k', v'⟩ := first
      rw [put]
      split
      · exact ⟨(k', v), List.mem_cons_self, Or.inr ‹_›⟩
      · obtain ⟨written, there, same⟩ := ih
        exact ⟨written, List.mem_cons_of_mem _ there, same⟩

/-- A key that is not there goes to the end. -/
theorem put_of_absent {name : String} {entries : Entries}
    (absent : ∀ entry ∈ entries, entry.1 ≠ .str name) (v : Value) :
    put (.str name) v entries = entries ++ [(.str name, v)] := by
  induction entries with
  | nil => rfl
  | cons first rest ih =>
      have other : ¬ first.1.same (.str name) = true := fun same =>
        absent first List.mem_cons_self ((Scalar.same_str _ _).mp same)
      rw [put, if_neg other, ih fun entry member => absent entry (List.mem_cons_of_mem _ member),
        List.cons_append]

@[simp] theorem putAll_nil (entries : Entries) : putAll entries [] = entries := rfl

@[simp] theorem putAll_cons (entries : Entries) (entry : Scalar × Value) (new : Entries) :
    putAll entries (entry :: new) = putAll (put entry.1 entry.2 entries) new := rfl

/-- Entries with new keys go to the end, in order. -/
theorem putAll_of_distinct {entries new : Entries}
    (keys : ∀ entry ∈ new, ∃ name, entry.1 = .str name)
    (distinct : ((entries ++ new).map Prod.fst).Nodup) : putAll entries new = entries ++ new := by
  induction new generalizing entries with
  | nil => simp
  | cons entry rest ih =>
      obtain ⟨k, v⟩ := entry
      obtain ⟨name, rfl⟩ := keys _ List.mem_cons_self
      have absent : ∀ entry ∈ entries, entry.1 ≠ .str name := by
        intro entry member same
        rw [List.map_append, List.nodup_append] at distinct
        exact distinct.2.2 _ (List.mem_map_of_mem member) _ List.mem_cons_self same
      rw [List.append_cons] at distinct
      rw [putAll_cons, put_of_absent absent,
        ih (fun e member => keys e (List.mem_cons_of_mem _ member)) distinct, ← List.append_cons]

/-- A key that is written by none of the new entries keeps its value. -/
theorem get?_putAll_of_none {key : String} {new : Entries} (absent : get? key new = none)
    (entries : Entries) : get? key (putAll entries new) = get? key entries := by
  induction new generalizing entries with
  | nil => rfl
  | cons entry rest ih =>
      obtain ⟨k, v⟩ := entry
      have other : k ≠ .str key := (get?_eq_none_iff key _).mp absent (k, v) List.mem_cons_self
      rw [get?_cons_of_ne other] at absent
      rw [putAll_cons, ih absent, get?_put, if_neg other]

/-- New entries with distinct keys are all seen. -/
theorem get?_putAll {new : Entries} (distinct : (new.map Prod.fst).Nodup) (key : String)
    (entries : Entries) :
    get? key (putAll entries new) = (get? key new).or (get? key entries) := by
  induction new generalizing entries with
  | nil => simp
  | cons entry rest ih =>
      obtain ⟨k, v⟩ := entry
      rw [List.map_cons, List.nodup_cons] at distinct
      rw [putAll_cons, ih distinct.2, get?_put]
      by_cases h : k = .str key
      · subst h
        have absent : get? key rest = none := by
          rw [get?_eq_none_iff]
          intro entry member same
          exact distinct.1 (List.mem_map.mpr ⟨entry, member, same⟩)
        simp [get?, absent]
      · simp [get?, h]

/-- Putting entries keeps the keys that are there. -/
theorem exists_putAll_old (new : Entries) {entries : Entries} {entry : Scalar × Value}
    (member : entry ∈ entries) : ∃ kept ∈ putAll entries new, kept.1 = entry.1 := by
  induction new generalizing entries entry with
  | nil => exact ⟨entry, member, rfl⟩
  | cons first rest ih =>
      obtain ⟨middle, there, same⟩ := exists_put_old first.1 first.2 member
      obtain ⟨kept, final, same'⟩ := ih there
      exact ⟨kept, final, same'.trans same⟩

/-- Every entry that is put is there by its key. -/
theorem exists_putAll_new {new : Entries} (entries : Entries) {entry : Scalar × Value}
    (member : entry ∈ new) :
    ∃ written ∈ putAll entries new, written.1 = entry.1 ∨ written.1.same entry.1 = true := by
  induction new generalizing entries with
  | nil => cases member
  | cons first rest ih =>
      rw [putAll_cons]
      rcases List.mem_cons.mp member with rfl | later
      · obtain ⟨written, there, same⟩ := exists_put_new entry.1 entry.2 entries
        obtain ⟨kept, final, same'⟩ := exists_putAll_old rest there
        exact ⟨kept, final, same' ▸ same⟩
      · exact ih _ later

/-- Nothing is there exactly if nothing is put. -/
theorem putAll_isEmpty (fields : Entries) : (putAll [] fields).isEmpty = fields.isEmpty := by
  cases fields with
  | nil => rfl
  | cons field rest =>
      have first : field ∈ field :: rest := List.mem_cons_self
      obtain ⟨entry, member, -⟩ := exists_putAll_new [] first
      cases made : putAll [] (field :: rest) with
      | nil =>
          rw [made] at member
          cases member
      | cons => rfl

theorem mem_putAll {new entries : Entries} {entry : Scalar × Value}
    (member : entry ∈ putAll entries new) :
    entry ∈ entries ∨
      ∃ written ∈ new, entry.2 = written.2 ∧
        (entry.1 = written.1 ∨ entry.1.same written.1 = true) := by
  induction new generalizing entries with
  | nil => exact Or.inl member
  | cons first rest ih =>
      rw [putAll_cons] at member
      rcases ih member with old | ⟨written, later, same⟩
      · rcases mem_put old with old | new
        · exact Or.inl old
        · exact Or.inr ⟨first, List.mem_cons_self, new⟩
      · exact Or.inr ⟨written, List.mem_cons_of_mem _ later, same⟩

/-- The same keys in the same order, with related values under them. -/
def Pointwise (R : Value → Value → Prop) : Entries → Entries → Prop :=
  List.Forall₂ fun entry entry' => entry.1 = entry'.1 ∧ R entry.2 entry'.2

section Pointwise

variable {R : Value → Value → Prop} {entries entries' : Entries}

theorem pointwise_iff :
    Pointwise R entries entries' ↔ entries.map Prod.fst = entries'.map Prod.fst ∧
      ∀ entry entry', (entry, entry') ∈ entries.zip entries' → R entry.2 entry'.2 := by
  constructor
  · intro pointwise
    refine ⟨?_, fun entry entry' member => (List.forall₂_zip pointwise member).2⟩
    induction pointwise with
    | nil => rfl
    | cons both _ ih => rw [List.map_cons, List.map_cons, both.1, ih]
  · rintro ⟨keys, each⟩
    have same : List.Forall₂ (fun entry entry' : Scalar × Value => entry.1 = entry'.1)
        entries entries' := by
      rw [← List.forall₂_eq_eq_eq] at keys
      exact List.forall₂_map_left_iff.mp (List.forall₂_map_right_iff.mp keys)
    exact List.forall₂_iff_zip.mpr ⟨same.length_eq, fun member =>
      ⟨List.forall₂_zip same member, each _ _ member⟩⟩

theorem Pointwise.get? (pointwise : Pointwise R entries entries') (key : String) :
    Option.Rel R (Entries.get? key entries) (Entries.get? key entries') := by
  induction pointwise with
  | nil => exact .none
  | @cons entry entry' rest rest' both _ ih =>
      obtain ⟨k, v⟩ := entry
      obtain ⟨k', v'⟩ := entry'
      obtain ⟨rfl, related⟩ := both
      by_cases h : k = .str key
      · subst h
        rw [get?_cons_self, get?_cons_self]
        exact .some related
      · rw [get?_cons_of_ne h, get?_cons_of_ne h]
        exact ih

theorem Pointwise.get?_left (pointwise : Pointwise R entries entries') {key : String} {v : Value}
    (found : Entries.get? key entries = some v) :
    ∃ w, Entries.get? key entries' = some w ∧ R v w := by
  have related := pointwise.get? key
  rw [found] at related
  generalize Entries.get? key entries' = other at related ⊢
  cases related with
  | some related => exact ⟨_, rfl, related⟩

theorem Pointwise.get?_none (pointwise : Pointwise R entries entries') {key : String}
    (absent : Entries.get? key entries = none) : Entries.get? key entries' = none := by
  have related := pointwise.get? key
  rw [absent] at related
  generalize Entries.get? key entries' = other at related ⊢
  cases related
  rfl

theorem Pointwise.right (pointwise : Pointwise R entries entries') {entry' : Scalar × Value}
    (member : entry' ∈ entries') :
    ∃ entry ∈ entries, entry.1 = entry'.1 ∧ R entry.2 entry'.2 :=
  exists_of_mem_right pointwise member

end Pointwise

end Entries

namespace Value

/-! ## Parts -/

/-- Induction over a document, with the items of a list and the values of a map at hand. -/
@[elab_as_elim, induction_eliminator]
theorem induction {motive : Value → Prop} (atom : ∀ a, motive (.atom a))
    (list : ∀ items, (∀ v ∈ items, motive v) → motive (.list items))
    (map : ∀ entries, (∀ entry ∈ entries, motive entry.2) → motive (.map entries)) :
    ∀ v, motive v
  | .atom a => atom a
  | .list items => list items fun v _ => induction atom list map v
  | .map entries => map entries fun entry _ => induction atom list map entry.2
termination_by v => sizeOf v
decreasing_by
  · have smaller := List.sizeOf_lt_of_mem ‹v ∈ items›
    simp only [Value.list.sizeOf_spec]
    omega
  · obtain ⟨k, w⟩ := entry
    have smaller := List.sizeOf_lt_of_mem ‹(k, w) ∈ entries›
    simp only [Value.map.sizeOf_spec, Prod.mk.sizeOf_spec] at smaller ⊢
    omega

mutual

/-- Whether two documents are the same. -/
def decideEq : (v w : Value) → Decidable (v = w)
  | .atom a, .atom b => decidable_of_iff (a = b) ⟨congrArg _, Value.atom.inj⟩
  | .list xs, .list ys =>
    match decideEqItems xs ys with
    | isTrue same => isTrue (congrArg _ same)
    | isFalse other => isFalse fun same => other (Value.list.inj same)
  | .map xs, .map ys =>
    match decideEqEntries xs ys with
    | isTrue same => isTrue (congrArg _ same)
    | isFalse other => isFalse fun same => other (Value.map.inj same)
  | .atom _, .list _ | .atom _, .map _ | .list _, .atom _ | .list _, .map _ | .map _, .atom _
  | .map _, .list _ => isFalse nofun

def decideEqItems : (xs ys : List Value) → Decidable (xs = ys)
  | [], [] => isTrue rfl
  | [], _ :: _ | _ :: _, [] => isFalse nofun
  | v :: xs, w :: ys =>
    match decideEq v w, decideEqItems xs ys with
    | isTrue first, isTrue later => isTrue (congr (congrArg _ first) later)
    | isFalse other, _ => isFalse fun same => other (List.cons.inj same).1
    | _, isFalse other => isFalse fun same => other (List.cons.inj same).2

def decideEqEntries : (xs ys : List (Scalar × Value)) → Decidable (xs = ys)
  | [], [] => isTrue rfl
  | [], _ :: _ | _ :: _, [] => isFalse nofun
  | (k, v) :: xs, (k', w) :: ys =>
    match decEq k k', decideEq v w, decideEqEntries xs ys with
    | isTrue key, isTrue first, isTrue later =>
      isTrue (congr (congrArg _ (Prod.ext key first)) later)
    | isFalse other, _, _ => isFalse fun same => other (congrArg Prod.fst (List.cons.inj same).1)
    | _, isFalse other, _ => isFalse fun same => other (congrArg Prod.snd (List.cons.inj same).1)
    | _, _, isFalse other => isFalse fun same => other (List.cons.inj same).2

end

instance : DecidableEq Value := decideEq

/-- `PartOf v w` says that `v` stands somewhere in `w`, or is `w` itself. -/
inductive PartOf (v : Value) : Value → Prop
  | refl : PartOf v v
  | item {w : Value} {items : List Value} : w ∈ items → PartOf v w → PartOf v (.list items)
  | entry {k : Scalar} {w : Value} {entries : Entries} :
      (k, w) ∈ entries → PartOf v w → PartOf v (.map entries)

namespace PartOf

theorem trans {u v w : Value} (inner : u.PartOf v) (outer : v.PartOf w) : u.PartOf w := by
  induction outer with
  | refl => exact inner
  | item member _ ih => exact .item member ih
  | entry member _ ih => exact .entry member ih

theorem of_get? {key : String} {entries : Entries} {v : Value}
    (found : Entries.get? key entries = some v) : v.PartOf (.map entries) :=
  .entry (Entries.mem_of_get? found) .refl

end PartOf

/-- Every map that is a part of the value satisfies `P`. -/
def EveryMap (P : Entries → Prop) (v : Value) : Prop :=
  ∀ entries : Entries, (Value.map entries).PartOf v → P entries

/-- No map has the key `$ref`. -/
def ReferenceFree : Value → Prop := EveryMap fun entries => Entries.get? "$ref" entries = none

/-- A map that is a part of the value refers to `reference`. -/
def Mentions (v : Value) (reference : String) : Prop :=
  ∃ entries : Entries, (Value.map entries).PartOf v ∧
    Entries.get? "$ref" entries = some (.str reference)

/-- Whatever a map of the value refers to satisfies `P`. -/
def EveryReference (P : Value → Prop) : Value → Prop :=
  EveryMap fun entries => ∀ x, Entries.get? "$ref" entries = some x → P x

/-- No map has a key twice. -/
def DistinctKeys : Value → Prop := EveryMap fun entries => (entries.map Prod.fst).Nodup

theorem Mentions.whole {v w : Value} {reference : String} (mentions : v.Mentions reference)
    (part : v.PartOf w) : w.Mentions reference := by
  obtain ⟨entries, inner, refers⟩ := mentions
  exact ⟨entries, inner.trans part, refers⟩

theorem EveryReference.mono {P Q : Value → Prop} {v : Value} (every : v.EveryReference P)
    (weaker : ∀ x, P x → Q x) : v.EveryReference Q :=
  fun entries part x refers => weaker x (every entries part x refers)

section EveryMap

variable {P Q : Entries → Prop}

theorem EveryMap.part {v w : Value} (every : EveryMap P w) (part : v.PartOf w) :
    EveryMap P v :=
  fun entries inner => every entries (inner.trans part)

theorem EveryMap.get? {key : String} {entries : Entries} {v : Value}
    (every : EveryMap P (.map entries)) (found : Entries.get? key entries = some v) :
    EveryMap P v :=
  every.part (.of_get? found)

theorem everyMap_atom (a : Scalar) : EveryMap P (.atom a) := by
  intro entries part
  cases part

theorem everyMap_list_iff (items : List Value) :
    EveryMap P (.list items) ↔ ∀ v ∈ items, EveryMap P v := by
  constructor
  · intro every v member
    exact every.part (.item member .refl)
  · intro each entries part
    cases part with
    | item member inner => exact each _ member entries inner

theorem everyMap_map_iff (entries : Entries) :
    EveryMap P (.map entries) ↔ P entries ∧ ∀ entry ∈ entries, EveryMap P entry.2 := by
  constructor
  · intro every
    exact ⟨every entries .refl, fun entry member => every.part (.entry member .refl)⟩
  · rintro ⟨holds, each⟩ inner part
    cases part with
    | refl => exact holds
    | entry member part => exact each _ member inner part

/-- Written values keep what holds of all maps. -/
theorem everyMap_putAll {fields new : Entries} (old : ∀ entry ∈ fields, EveryMap P entry.2)
    (each : ∀ entry ∈ new, EveryMap P entry.2) :
    ∀ entry ∈ Entries.putAll fields new, EveryMap P entry.2 := by
  intro entry member
  rcases Entries.mem_putAll member with kept | ⟨written, member, same, -⟩
  · exact old entry kept
  · rw [same]
    exact each written member

end EveryMap

end Value

end ClientForge
