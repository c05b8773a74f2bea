/-
# ClientForge.Proofs.Types.Unapplied -- types of schemas apply nothing

The types that are read from schemas are names, literals, and what connectives make of them.
None of them is a generic type that is applied to others: the first character of such a text
that belongs to no word is never an angle bracket (`render_unapplied`).  This tells them from
the types that the generator brings along itself, whatever models are called, and whatever
stands in a literal.
-/
import ClientForge.Proofs.Types.Rendering
import Mathlib.Data.List.TakeWhile

namespace ClientForge

set_option autoImplicit false

namespace TypeText

/-- The first character that belongs to no word is no angle bracket. -/
def Unapplied (text : String) : Prop := (text.toList.dropWhile isWordChar).head? ≠ some '<'

instance (text : String) : Decidable (Unapplied text) := inferInstanceAs (Decidable (_ ≠ _))

namespace Unapplied

variable {first second : String}

theorem of_word {text : String} (word : ∀ c ∈ text.toList, isWordChar c = true) :
    Unapplied text := by
  have nothing : text.toList.dropWhile isWordChar = [] := List.dropWhile_eq_nil_iff.mpr word
  rw [Unapplied, nothing]
  simp

theorem append (one : Unapplied first) (two : Unapplied second) : Unapplied (first ++ second) := by
  unfold Unapplied at one two ⊢
  rw [String.toList_append, List.dropWhile_append]
  split
  · exact two
  · rename_i others
    rwa [List.head?_append_of_ne_nil _ (by simpa using others)]

theorem intercalate {separator : String} (between : Unapplied separator) {parts : List String}
    (each : ∀ part ∈ parts, Unapplied part) : Unapplied (String.intercalate separator parts) := by
  induction parts with
  | nil => exact of_word (by simp)
  | cons part rest ih =>
      cases rest with
      | nil =>
          rw [String.intercalate_singleton]
          exact each part List.mem_cons_self
      | cons next rest =>
          rw [String.intercalate_cons_cons]
          refine .append (.append (each part List.mem_cons_self) between) (ih ?_)
          exact fun part member => each part (List.mem_cons_of_mem _ member)

/-- The start of a text decides, unless it is all of one word. -/
theorem start_iff {start : String} (other : start.toList.dropWhile isWordChar ≠ [])
    (rest : String) : Unapplied (start ++ rest) ↔ Unapplied start := by
  unfold Unapplied
  rw [String.toList_append, List.dropWhile_append, if_neg (by simpa using other),
    List.head?_append_of_ne_nil _ other]

/-- The name of a type is a word. -/
theorem pascal (name : String) : Unapplied (Naming.pascal name) := by
  refine .of_word fun c member => ?_
  rw [Naming.pascal, String.toList_ofList] at member
  have inName : Text.isNameCode c.toNat = true := Naming.pascal_isNameChar c member
  simp [isWordChar, inName]

end Unapplied

end TypeText

namespace TypeExpr

open TypeText (Unapplied)
open TypeText.Unapplied (start_iff)

theorem typeText_unapplied {v : Value} {text : String} (run : Literal.typeText? v = some text) :
    Unapplied text := by
  have quoted : ∀ chars : List Char, Unapplied (String.ofList ('\'' :: chars)) ∧
      Unapplied (String.ofList ('"' :: chars)) := by
    intro chars
    constructor
    · exact String.ofList_cons ▸ (start_iff (by decide) _).mpr (by decide)
    · exact String.ofList_cons ▸ (start_iff (by decide) _).mpr (by decide)
  unfold Literal.typeText? at run
  split at run
  · obtain rfl := Option.some.inj run
    exact (quoted _).1
  · cases v with
    | atom a =>
        rcases TypeText.printScalar?_eq_some run with ⟨s, -, rfl⟩ | word
        · exact (quoted _).2
        · exact .of_word word.2
    | list items =>
        rw [Json.print?] at run
        obtain ⟨parts, -, run⟩ := Option.bind_eq_some_iff.mp run
        obtain rfl := Option.some.inj run
        exact String.append_assoc ▸ (start_iff (by decide) _).mpr (by decide)
    | map entries =>
        rw [Json.print?] at run
        obtain ⟨parts, -, run⟩ := Option.bind_eq_some_iff.mp run
        obtain rfl := Option.some.inj run
        exact String.append_assoc ▸ (start_iff (by decide) _).mpr (by decide)

theorem joinDistinct_unapplied {separator : String} (between : Unapplied separator)
    {texts : List String} (each : ∀ text ∈ texts, Unapplied text) :
    Unapplied (joinDistinct separator texts) := by
  unfold joinDistinct
  split
  · decide
  · exact .intercalate between fun text member => each text (List.mem_eraseDups.mp member)

theorem parenthesized_unapplied (operator : Char) {text : String} (unapplied : Unapplied text) :
    Unapplied (parenthesized operator text) := by
  unfold parenthesized
  split
  · exact .append (.append (by decide) unapplied) (by decide)
  · exact unapplied

mutual

/-- No type expression is written as a generic type that is applied to others. -/
theorem render_unapplied : ∀ e : TypeExpr, Unapplied e.render
  | .unknown => by
      rw [render]
      decide
  | .primitive p => by
      rw [render]
      cases p <;> decide
  | .named schema => by
      rw [render]
      exact .pascal schema
  | .literal v => by
      rw [render]
      cases run : Literal.typeText? v with
      | none => decide
      | some text => exact typeText_unapplied run
  | .array item => by
      rw [render, arrayText]
      refine .append ?_ (by decide)
      split
      · exact .append (.append (by decide) (render_unapplied item)) (by decide)
      · exact render_unapplied item
  | .union members => by
      rw [render]
      refine joinDistinct_unapplied (by decide) fun text member => ?_
      obtain ⟨part, inside, rfl⟩ := List.mem_map.mp member
      exact parenthesized_unapplied '&' (renderList_unapplied members part inside)
  | .choice members => by
      rw [render]
      exact joinDistinct_unapplied (by decide) (renderList_unapplied members)
  | .intersection members => by
      rw [render]
      refine joinDistinct_unapplied (by decide) fun text member => ?_
      obtain ⟨part, inside, rfl⟩ := List.mem_map.mp member
      exact parenthesized_unapplied '|' (renderList_unapplied members part inside)
  | .object members => by
      rw [render, objectText]
      split
      · decide
      · rw [String.append_assoc]
        exact (start_iff (by decide) _).mpr (by decide)
  | .nullable base => by
      rw [render, nullableText]
      split
      · exact render_unapplied base
      · exact .append (render_unapplied base) (by decide)

theorem renderList_unapplied : ∀ (members : List TypeExpr), ∀ text ∈ renderList members,
    Unapplied text
  | [], text, member => by
      rw [renderList] at member
      cases member
  | e :: rest, text, member => by
      rw [renderList] at member
      rcases List.mem_cons.mp member with rfl | later
      · exact render_unapplied e
      · exact renderList_unapplied rest text later

end

end TypeExpr

end ClientForge
