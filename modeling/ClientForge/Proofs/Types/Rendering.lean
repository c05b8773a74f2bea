/-
# ClientForge.Proofs.Types.Rendering -- type expressions and the trees of their texts

`Renders e t` says that the text of a type expression reads as the tree, and that it is the bare
word for a type of which nothing is known wherever the tree is such a type, because null is
added to all other texts.  There is a rule for each form of expression, from the trees of its
parts to its own.
-/
import ClientForge.Proofs.Types.Literals
import ClientForge.Types.Expression

namespace ClientForge

set_option autoImplicit false

open TypeText (Shows ShowsMember IsWord)
open TypeTree (Same)

namespace TypeExpr

/-- The text of the expression is one of the tree, and a bare word where nothing is known. -/
structure Renders (e : TypeExpr) (t : TypeTree) : Prop where
  shown : Shows [.union, .intersection] e.render t
  bare : t.isUnknown = true → e.render = unknownText

theorem renderList_eq (es : List TypeExpr) : renderList es = es.map render := by
  induction es with
  | nil => rfl
  | cons e rest ih => exact congrArg (e.render :: ·) ih

theorem renderMembers_eq (members : List (MemberKey × TypeExpr)) :
    renderMembers members = members.map fun member => member.1.text ++ ": " ++ member.2.render := by
  induction members with
  | nil => rfl
  | cons member rest ih =>
      obtain ⟨key, e⟩ := member
      exact congrArg ((key.text ++ ": " ++ e.render) :: ·) ih

/-- A name with a letter or a digit makes a word. -/
theorem isWord_pascal {schema : String}
    (letters : ∃ c ∈ schema.toList, Text.isAlphanumeric c = true) :
    IsWord (Naming.pascal schema) := by
  unfold Naming.pascal
  rw [IsWord, String.toList_ofList]
  refine ⟨Naming.pascalChars_ne_nil letters, fun c member => ?_⟩
  have name : Text.isNameCode c.toNat = true := Naming.pascal_isNameChar c member
  simp [TypeText.isWordChar, name]

namespace Renders

/-- A text that is a leaf. -/
theorem leaf {e : TypeExpr} {text : String} (same : e.render = text)
    (shown : Shows [] text (.leaf text)) : e.Renders (.leaf text) where
  shown := same ▸ shown.all
  bare := fun unknown => by
    rw [TypeTree.isUnknown, beq_iff_eq] at unknown
    rw [same, unknown]
    rfl

theorem word {e : TypeExpr} {text : String} (same : e.render = text) (word : IsWord text) :
    e.Renders (.leaf text) :=
  .leaf same (.leaf word.reads)

theorem unknown : TypeExpr.unknown.Renders .unknown := .word rfl (by decide)

theorem primitive (p : Primitive) : (TypeExpr.primitive p).Renders (.leaf p.text) :=
  .word rfl (by cases p <;> decide)

/-- The name of a component schema. -/
theorem named {schema : String} (letters : ∃ c ∈ schema.toList, Text.isAlphanumeric c = true) :
    (TypeExpr.named schema).Renders (.leaf (Naming.pascal schema)) :=
  .word rfl (isWord_pascal letters)

theorem literal {v : Value} (readable : v.Readable) {text : String}
    (run : Literal.typeText? v = some text) : (TypeExpr.literal v).Renders (literalTree v) := by
  have writes : (TypeExpr.literal v).render = text := by rw [render, run, Option.getD_some]
  have shown := TypeText.shows_literal readable run
  cases v with
  | atom a =>
      rw [TypeText.literalTree_atom run] at shown ⊢
      exact .leaf writes shown
  | list items => exact ⟨writes ▸ shown.all, fun unknown => by cases unknown⟩
  | map entries => exact ⟨writes ▸ shown.all, fun unknown => by cases unknown⟩

theorem array {e : TypeExpr} {t : TypeTree} (item : e.Renders t) :
    (TypeExpr.array e).Renders (.array t) where
  shown := by
    rw [render]
    exact item.shown.array.all
  bare := fun unknown => by cases unknown

theorem exists_texts {c : Connective} {f : String → String}
    (writes : ∀ text t, Shows [.union, .intersection] text t → Shows c.within (f text) t)
    {es : List TypeExpr} {ts : List TypeTree} (each : List.Forall₂ Renders es ts) :
    List.Forall₂ (Shows c.within) ((renderList es).map f) ts := by
  rw [renderList_eq, List.map_map, List.forall₂_map_left_iff]
  exact each.imp fun e t renders => writes _ t renders.shown

/-- Types of which nothing is known are joined to one. -/
theorem joinDistinct_unknown {separator : String} {texts : List String}
    (each : ∀ text ∈ texts, text = unknownText) :
    joinDistinct separator texts = unknownText := by
  cases texts with
  | nil => rfl
  | cons text rest =>
      have none : rest.filter (fun other => !other == text) = [] := by
        refine List.filter_eq_nil_iff.mpr fun other member => ?_
        rw [each other (List.mem_cons_of_mem _ member), each text List.mem_cons_self]
        simp
      unfold joinDistinct
      rw [List.eraseDups_cons, none, each text List.mem_cons_self]
      rfl

/-- A list of types, joined by a connective. -/
theorem joined {c : Connective} {f : String → String}
    (writes : ∀ text t, Shows [.union, .intersection] text t → Shows c.within (f text) t)
    (keeps : f unknownText = unknownText) {e : TypeExpr} {es : List TypeExpr} {ts : List TypeTree}
    (same : e.render = joinDistinct c.separator ((renderList es).map f))
    (each : List.Forall₂ Renders es ts) : e.Renders (.ofMembers c ts) where
  shown := by
    rw [same]
    exact (Shows.joinDistinct (exists_texts writes each)).all
  bare := fun unknown => by
    rw [same]
    refine joinDistinct_unknown fun text member => ?_
    obtain ⟨inner, among, rfl⟩ := List.mem_map.mp member
    rw [renderList_eq] at among
    obtain ⟨e, there, rfl⟩ := List.mem_map.mp among
    obtain ⟨t, member, renders⟩ := exists_of_mem_right each.flip there
    rw [TypeTree.isUnknown_ofMembers, List.all_eq_true] at unknown
    have renders : e.Renders t := renders
    rw [renders.bare (unknown t member), keeps]

theorem union {es : List TypeExpr} {ts : List TypeTree} (each : List.Forall₂ Renders es ts) :
    (TypeExpr.union es).Renders (.ofMembers .union ts) :=
  .joined (fun _ _ shown => shown.asMember .union) (by decide) rfl each

theorem intersection {es : List TypeExpr} {ts : List TypeTree} (each : List.Forall₂ Renders es ts) :
    (TypeExpr.intersection es).Renders (.ofMembers .intersection ts) :=
  .joined (fun _ _ shown => shown.asMember .intersection) (by decide) rfl each

/-- Alternatives need no parentheses, since an intersection among them binds tighter. -/
theorem choice {es : List TypeExpr} {ts : List TypeTree} (each : List.Forall₂ Renders es ts) :
    (TypeExpr.choice es).Renders (.ofMembers .union ts) :=
  .joined (c := .union) (f := id) (fun _ _ shown => shown) rfl
    (by rw [render, List.map_id]; rfl) each

/-- **Null is added to a whole type.** -/
theorem nullable {e : TypeExpr} {t : TypeTree} (base : e.Renders t) :
    (TypeExpr.nullable e).Renders t.orNull := by
  have null : Shows [] "null" .null := .leaf (IsWord.reads (by decide))
  have added :
      Shows [.union, .intersection] (e.render ++ " | null") (.joined .union [t, .null]) := by
    have members : List.Forall₂ (Shows Connective.union.within) [e.render, "null"] [t, .null] :=
      .cons base.shown (.cons null.all .nil)
    have joined := Shows.intercalate members (by simp)
    rw [String.intercalate_cons_cons, String.intercalate_singleton, String.append_assoc] at joined
    exact joined
  by_cases unknown : t.isUnknown = true
  · have same : t.orNull = t := if_pos unknown
    have writes : (TypeExpr.nullable e).render = e.render := by
      rw [render, nullableText, if_pos (Or.inl (base.bare unknown))]
    rw [same]
    exact ⟨writes ▸ base.shown, fun _ => writes.trans (base.bare unknown)⟩
  · have same : t.orNull = .joined .union [t, .null] := if_neg unknown
    rw [same]
    refine ⟨?_, fun known => ?_⟩
    · rw [render, nullableText]
      split
      · rename_i alone
        rcases alone with isUnknown | isNull
        · have read := base.shown.same (isUnknown ▸ Shows.unknown)
          exact absurd read.isUnknown_eq unknown
        · -- null is already there, and adding it once more is a repeat
          have read : Same t .null := base.shown.same (isNull ▸ null)
          have twice : Same (.joined .union [t, .null]) (.joined .union [.null, .null]) :=
            .joined (.cons read (.cons (.refl _) .nil))
          have once : Same (.joined .union ([] ++ .null :: ([] ++ .null :: [])))
              (.joined .union ([] ++ .null :: ([] ++ []))) := .repeated
          exact base.shown.of_same (read.trans (twice.trans (once.trans .single)).symm)
      · exact added
    · rw [TypeTree.isUnknown_joined, List.all_cons, List.all_cons] at known
      have isKnown : TypeTree.null.isUnknown = false := by decide
      simp [isKnown] at known

end Renders

/-- The key of a member in its object type. -/
def treeKey : MemberKey → TreeKey
  | .property name optional => .property (Naming.propertyKey name) optional
  | .index => .index "key" "string"

/-- The text of a member is one of a member of an object type. -/
structure RendersMember (m : MemberKey × TypeExpr) (n : TreeKey × TypeTree) : Prop where
  key : n.1 = treeKey m.1
  readable : ∀ name optional, m.1 = .property name optional → Text.Balanced name ∧ Text.Raw name
  type : m.2.Renders n.2

theorem RendersMember.shown {m : MemberKey × TypeExpr} {n : TreeKey × TypeTree}
    (renders : RendersMember m n) : ShowsMember (m.1.text ++ ": " ++ m.2.render) n := by
  obtain ⟨key, e⟩ := m
  obtain ⟨_, t⟩ := n
  obtain ⟨rfl, readable, type⟩ := renders
  cases key with
  | property name optional =>
      obtain ⟨balanced, raw⟩ := readable name optional rfl
      exact .property (TypeText.reads_propertyKey balanced raw) optional type.shown
  | index => exact .index type.shown

theorem Renders.object {ms : List (MemberKey × TypeExpr)} {ns : List (TreeKey × TypeTree)}
    (each : List.Forall₂ RendersMember ms ns) : (TypeExpr.object ms).Renders (.object ns) where
  shown := by
    rw [render, renderMembers_eq]
    exact (Shows.object (List.forall₂_map_left_iff.mpr (each.imp fun _ _ m => m.shown))).all
  bare := fun unknown => by cases unknown

/-! ## Trees of expressions -/

mutual

/-- The tree of an expression, which does not depend on any text that is written for it. -/
def tree : TypeExpr → TypeTree
  | .unknown => .unknown
  | .primitive p => .leaf p.text
  | .named schema => .leaf (Naming.pascal schema)
  | .literal value => literalTree value
  | .array item => .array (tree item)
  | .union members => .ofMembers .union (trees members)
  | .choice members => .ofMembers .union (trees members)
  | .intersection members => .ofMembers .intersection (trees members)
  | .object members => .object (memberTrees members)
  | .nullable base => (tree base).orNull

def trees : List TypeExpr → List TypeTree
  | [] => []
  | e :: rest => tree e :: trees rest

def memberTrees : List (MemberKey × TypeExpr) → List (TreeKey × TypeTree)
  | [] => []
  | (key, e) :: rest => (treeKey key, tree e) :: memberTrees rest

end

theorem trees_eq (es : List TypeExpr) : trees es = es.map tree := by
  induction es with
  | nil => rfl
  | cons e rest ih => rw [trees, ih, List.map_cons]

theorem memberTrees_eq (members : List (MemberKey × TypeExpr)) :
    memberTrees members = members.map fun member => (treeKey member.1, member.2.tree) := by
  induction members with
  | nil => rfl
  | cons member rest ih =>
      obtain ⟨key, e⟩ := member
      rw [memberTrees, ih, List.map_cons]

end TypeExpr

end ClientForge
