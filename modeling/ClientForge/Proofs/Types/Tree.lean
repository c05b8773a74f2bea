/-
# ClientForge.Proofs.Types.Tree -- how types are put together

A type tree says how a type is put together, without a text: what an array is an array of,
what the members of a union or an intersection are.  Some differences between trees are none
between types: a union inside a union, a member that stands there again, a union of one member.
`Same` leaves these out, in every part of a tree, and nothing else; in particular it keeps the
order of members, and it never takes a union for an intersection.

A type of which nothing is known stays one under `Same` (`Same.isUnknown_eq`), so adding null
to it and leaving it as it is are different types.  And whatever leaves, arrays and objects stand
for, the same type has the same values (`Same.values_eq`).
-/
import Mathlib.Data.List.Forall2
import Mathlib.Data.Set.Basic

namespace ClientForge

set_option autoImplicit false

/-- How the members of a type are connected. -/
inductive Connective where
  | union
  | intersection
  deriving DecidableEq

/-- What a member of an object type goes by, as it is written. -/
inductive TreeKey where
  | property (text : String) (optional : Bool)
  | index (name type : String)
  deriving DecidableEq

/-- A type; a leaf is a name or a literal, as it is written. -/
inductive TypeTree where
  | leaf (text : String)
  | array (item : TypeTree)
  | tuple (items : List TypeTree)
  | object (members : List (TreeKey × TypeTree))
  | joined (c : Connective) (members : List TypeTree)

namespace TypeTree

/-- The type that nothing is known about. -/
def unknown : TypeTree := .leaf "unknown"

def null : TypeTree := .leaf "null"

/-- The type that is joined of members: one alone is the type, and of none nothing is known. -/
def ofMembers (c : Connective) : List TypeTree → TypeTree
  | [] => unknown
  | [t] => t
  | members => .joined c members

mutual

/-- Nothing is known about a type, or about any member that it is joined of. -/
def isUnknown : TypeTree → Bool
  | .leaf text => text == "unknown"
  | .array _ => false
  | .tuple _ => false
  | .object _ => false
  | .joined _ members => allUnknown members

def allUnknown : List TypeTree → Bool
  | [] => true
  | t :: rest => t.isUnknown && allUnknown rest

end

theorem allUnknown_eq (ts : List TypeTree) : allUnknown ts = ts.all isUnknown := by
  induction ts with
  | nil => rfl
  | cons t rest ih => rw [allUnknown, ih, List.all_cons]

theorem isUnknown_joined (c : Connective) (ts : List TypeTree) :
    (joined c ts).isUnknown = ts.all isUnknown := by
  rw [isUnknown, allUnknown_eq]

theorem isUnknown_ofMembers (c : Connective) (ts : List TypeTree) :
    (ofMembers c ts).isUnknown = ts.all isUnknown := by
  match ts with
  | [] => rfl
  | [t] => simp [ofMembers]
  | t :: u :: rest => exact isUnknown_joined c (t :: u :: rest)

/-- A type with null added; where nothing is known, null adds nothing. -/
def orNull (t : TypeTree) : TypeTree :=
  if t.isUnknown then t else .joined .union [t, null]

/-- Two trees are one type, up to how unions and intersections are nested, members that stand
there again, and unions or intersections of one member. -/
inductive Same : TypeTree → TypeTree → Prop
  | refl (t : TypeTree) : Same t t
  | symm {t u : TypeTree} : Same t u → Same u t
  | trans {t u v : TypeTree} : Same t u → Same u v → Same t v
  | array {t u : TypeTree} : Same t u → Same (.array t) (.array u)
  | item {before after : List TypeTree} {t u : TypeTree} :
      Same t u → Same (.tuple (before ++ t :: after)) (.tuple (before ++ u :: after))
  | member {before after : List (TreeKey × TypeTree)} {key : TreeKey} {t u : TypeTree} :
      Same t u →
        Same (.object (before ++ (key, t) :: after)) (.object (before ++ (key, u) :: after))
  | part {c : Connective} {before after : List TypeTree} {t u : TypeTree} :
      Same t u → Same (.joined c (before ++ t :: after)) (.joined c (before ++ u :: after))
  | nested {c : Connective} {before inner after : List TypeTree} :
      Same (.joined c (before ++ .joined c inner :: after)) (.joined c (before ++ (inner ++ after)))
  | repeated {c : Connective} {before between after : List TypeTree} {t : TypeTree} :
      Same (.joined c (before ++ t :: (between ++ t :: after)))
        (.joined c (before ++ t :: (between ++ after)))
  | single {c : Connective} {t : TypeTree} : Same (.joined c [t]) t

namespace Same

variable {c : Connective} {t u : TypeTree}

/-- Whether something is known about a type does not depend on its tree. -/
theorem isUnknown_eq (same : Same t u) : t.isUnknown = u.isUnknown := by
  induction same with
  | refl t => rfl
  | symm _ ih => exact ih.symm
  | trans _ _ first second => exact first.trans second
  | array _ _ => rfl
  | item _ _ => rfl
  | member _ _ => rfl
  | part _ ih => simp only [isUnknown_joined, List.all_append, List.all_cons, ih]
  | nested => simp only [isUnknown_joined, List.all_append, List.all_cons]
  | @repeated c before between after t =>
      simp only [isUnknown_joined, List.all_append, List.all_cons]
      cases t.isUnknown <;> simp
  | single => simp [isUnknown_joined]

theorem ofMembers {ts : List TypeTree} (some : ts ≠ []) :
    Same (ofMembers c ts) (.joined c ts) := by
  match ts with
  | [] => exact absurd rfl some
  | [t] => exact .symm .single
  | t :: u :: rest => exact .refl _

/-- What may be exchanged at every place may be exchanged at all of them. -/
theorem everywhere {α : Type} {R : α → α → Prop} {f : List α → TypeTree}
    (once : ∀ before a b after, R a b → Same (f (before ++ a :: after)) (f (before ++ b :: after)))
    {as bs : List α} (each : List.Forall₂ R as bs) : Same (f as) (f bs) := by
  have behind (before : List α) : Same (f (before ++ as)) (f (before ++ bs)) := by
    induction each generalizing before with
    | nil => exact .refl _
    | @cons a b as bs first _ ih =>
        have later := ih (before ++ [b])
        rw [List.append_assoc, List.append_assoc] at later
        exact (once before a b as first).trans later
  exact behind []

theorem joined {ts us : List TypeTree} (each : List.Forall₂ Same ts us) :
    Same (.joined c ts) (.joined c us) :=
  everywhere (fun _ _ _ _ same => .part same) each

theorem tuple {ts us : List TypeTree} (each : List.Forall₂ Same ts us) :
    Same (.tuple ts) (.tuple us) :=
  everywhere (fun _ _ _ _ same => .item same) each

theorem object {ms ns : List (TreeKey × TypeTree)}
    (each : List.Forall₂ (fun m n => m.1 = n.1 ∧ Same m.2 n.2) ms ns) :
    Same (.object ms) (.object ns) := by
  refine everywhere (fun before m n after both => ?_) each
  obtain ⟨key, t⟩ := m
  obtain ⟨key', u⟩ := n
  obtain ⟨rfl, same⟩ := both
  exact .member same

/-- Members that are joined in the same way themselves may be taken apart. -/
theorem flatten {groups : List (List TypeTree)} {ts : List TypeTree}
    (each : List.Forall₂ (fun group t => Same (.joined c group) t) groups ts) :
    Same (.joined c groups.flatten) (.joined c ts) := by
  have apart (before : List TypeTree) :
      Same (.joined c (before ++ groups.map (.joined c)))
        (.joined c (before ++ groups.flatten)) := by
    clear each
    induction groups generalizing before with
    | nil => exact .refl _
    | cons group rest ih =>
        have later := ih (before ++ group)
        rw [List.append_assoc, List.append_assoc] at later
        rw [List.map_cons, List.flatten_cons]
        exact .trans .nested later
  have together : Same (.joined c (groups.map (.joined c))) (.joined c ts) :=
    joined (List.forall₂_map_left_iff.mpr each)
  exact (apart []).symm.trans together

/-- One more member in front of the same members. -/
theorem behind {ts us : List TypeTree} (same : Same (.joined c ts) (.joined c us)) (t : TypeTree) :
    Same (.joined c (t :: ts)) (.joined c (t :: us)) := by
  have apart (members : List TypeTree) :
      Same (.joined c ([t] ++ .joined c members :: [])) (.joined c ([t] ++ (members ++ []))) :=
    .nested
  have whole := (apart ts).symm.trans ((Same.part same).trans (apart us))
  rw [List.append_nil, List.append_nil] at whole
  exact whole

section Repeats

variable {α : Type} [DecidableEq α] {F : α → TypeTree → Prop}
  (unique : ∀ a t u, F a t → F a u → Same t u)
include unique

/-- Behind a member, others like it may be left out. -/
theorem without {a : α} (first : F a t) {as : List α} {ts : List TypeTree}
    (each : List.Forall₂ F as ts) :
    ∃ us, List.Forall₂ F (as.filter fun b => !b == a) us ∧
      ∀ between, Same (.joined c (t :: (between ++ us))) (.joined c (t :: (between ++ ts))) := by
  induction each with
  | nil => exact ⟨[], .nil, fun between => .refl _⟩
  | @cons b u as ts head rest ih =>
      obtain ⟨us, kept, same⟩ := ih
      by_cases again : b = a
      · subst again
        refine ⟨us, by simpa using kept, fun between => ?_⟩
        have exchanged : Same (.joined c ((t :: between) ++ t :: ts))
            (.joined c ((t :: between) ++ u :: ts)) := .part (unique b t u first head)
        have once : Same (.joined c ([] ++ t :: (between ++ t :: ts)))
            (.joined c ([] ++ t :: (between ++ ts))) := .repeated
        exact (same between).trans (once.symm.trans exchanged)
      · refine ⟨u :: us, ?_, fun between => ?_⟩
        · rw [List.filter_cons_of_pos (by simpa using again)]
          exact .cons head kept
        · have later := same (between ++ [u])
          rw [List.append_assoc, List.append_assoc] at later
          exact later

/-- Members that are given repeatedly count once. -/
theorem eraseDups {as : List α} {ts : List TypeTree} (each : List.Forall₂ F as ts) :
    ∃ us, List.Forall₂ F as.eraseDups us ∧ Same (.joined c us) (.joined c ts) := by
  cases each with
  | nil => exact ⟨[], .nil, .refl _⟩
  | @cons a t as ts first rest =>
      obtain ⟨us, kept, same⟩ := without (c := c) unique first rest
      obtain ⟨vs, distinct, merged⟩ := eraseDups kept
      refine ⟨t :: vs, ?_, ?_⟩
      · rw [List.eraseDups_cons]
        exact .cons first distinct
      · have behind : Same (.joined c (t :: vs)) (.joined c (t :: us)) := merged.behind t
        exact behind.trans (same [])
termination_by as.length
decreasing_by
  have bound := List.length_filter_le (fun b => !b == a) as
  rw [List.length_cons]
  omega

end Repeats

end Same

end TypeTree

/-! ## Meaning -/

/-- The values of some type, or of all of them. -/
def Connective.values {α : Type} : Connective → List (Set α) → Set α
  | .union, types => {x | ∃ values ∈ types, x ∈ values}
  | .intersection, types => {x | ∀ values ∈ types, x ∈ values}

/-- Only what stands among the types counts. -/
theorem Connective.values_congr {α : Type} (c : Connective) {types others : List (Set α)}
    (same : ∀ values, values ∈ types ↔ values ∈ others) : c.values types = c.values others := by
  cases c <;> simp only [values, same]

namespace TypeTree

/-- What leaves stand for, and what comes of the values of an array, of tuples and of objects. -/
structure Interpretation (α : Type) where
  leaf : String → Set α
  array : Set α → Set α
  tuple : List (Set α) → Set α
  object : List (TreeKey × Set α) → Set α

namespace Interpretation

variable {α : Type} (I : Interpretation α)

mutual

/-- The values of a type. -/
def values : TypeTree → Set α
  | .leaf text => I.leaf text
  | .array item => I.array (values item)
  | .tuple items => I.tuple (valuesOfAll items)
  | .object members => I.object (valuesOfMembers members)
  | .joined c members => c.values (valuesOfAll members)

def valuesOfAll : List TypeTree → List (Set α)
  | [] => []
  | t :: rest => values t :: valuesOfAll rest

def valuesOfMembers : List (TreeKey × TypeTree) → List (TreeKey × Set α)
  | [] => []
  | (key, t) :: rest => (key, values t) :: valuesOfMembers rest

end

theorem valuesOfAll_eq (ts : List TypeTree) : I.valuesOfAll ts = ts.map I.values := by
  induction ts with
  | nil => rfl
  | cons t rest ih => rw [valuesOfAll, ih, List.map_cons]

theorem valuesOfMembers_eq (ms : List (TreeKey × TypeTree)) :
    I.valuesOfMembers ms = ms.map fun m => (m.1, I.values m.2) := by
  induction ms with
  | nil => rfl
  | cons m rest ih =>
      obtain ⟨key, t⟩ := m
      rw [valuesOfMembers, ih, List.map_cons]

theorem values_joined (c : Connective) (ts : List TypeTree) :
    I.values (.joined c ts) = c.values (ts.map I.values) := by
  rw [values, valuesOfAll_eq]

end Interpretation

/-- **The same type has the same values**, whatever its leaves stand for. -/
theorem Same.values_eq {α : Type} (I : Interpretation α) {t u : TypeTree} (same : Same t u) :
    I.values t = I.values u := by
  induction same with
  | refl t => rfl
  | symm _ ih => exact ih.symm
  | trans _ _ first second => exact first.trans second
  | array _ ih => rw [Interpretation.values, Interpretation.values, ih]
  | item _ ih =>
      simp only [Interpretation.values, Interpretation.valuesOfAll_eq, List.map_append,
        List.map_cons, ih]
  | member _ ih =>
      simp only [Interpretation.values, Interpretation.valuesOfMembers_eq, List.map_append,
        List.map_cons, ih]
  | part _ ih => simp only [Interpretation.values_joined, List.map_append, List.map_cons, ih]
  | @nested c before inner after =>
      simp only [Interpretation.values_joined, List.map_append, List.map_cons]
      cases c <;> ext x <;>
        simp [Connective.values, or_and_right, exists_or, or_imp, forall_and]
  | @repeated c before between after t =>
      rw [Interpretation.values_joined, Interpretation.values_joined]
      refine c.values_congr fun values => ?_
      simp only [List.map_append, List.map_cons, List.mem_append, List.mem_cons]
      tauto
  | @single c t =>
      rw [Interpretation.values_joined]
      cases c <;> ext x <;> simp [Connective.values]

/-- An array of a union is not a union with an array. -/
example : ¬ Same (.array (.joined .union [.leaf "A", .leaf "B"]))
    (.joined .union [.leaf "A", .array (.leaf "B")]) := by
  intro same
  let I : Interpretation Unit := ⟨fun _ => Set.univ, fun _ => ∅, fun _ => ∅, fun _ => ∅⟩
  have alternative : () ∈ I.values (.joined .union [.leaf "A", .array (.leaf "B")]) :=
    ⟨Set.univ, List.mem_cons_self, trivial⟩
  rw [← same.values_eq I] at alternative
  exact alternative

end TypeTree

end ClientForge
