/-
# ClientForge.Proofs.Naming.Algebra -- the algebra of joined names

Names are joined piece by piece: what a run of separators keeps apart is joined on either side
of it, and the results stand next to each other (`pascal_append_run`).  So separators in front
of a name do not count, and the joined name begins with the capital of the first letter or digit
(`pascalChars_first`).

For names of ASCII, joining is a projection.  The name of a type and the name of a variable that
are made of one text are joined to the same type and to the same variable again, and the names
of hooks and key functions may be made of either (`JoinedOnce`).
-/
import ClientForge.Proofs.Naming.Joining

namespace ClientForge.Naming

set_option autoImplicit false

open Text (isAlphanumeric upperChar)

/-! ## Separators -/

/-- Separators in front of a name make no words. -/
theorem words_run {run : List Char} (separators : ∀ c ∈ run, isAlphanumeric c = false)
    (name : List Char) : words (run ++ name) = words name := by
  induction run with
  | nil => rfl
  | cons c rest ih =>
      obtain ⟨here, later⟩ := List.forall_mem_cons.mp separators
      have cut : words ([] ++ c :: (rest ++ name)) = words [] ++ words (rest ++ name) :=
        words_append [] (rest ++ name) here
      rw [ih later] at cut
      exact cut

/-- A run of separators cuts no word, and makes none. -/
theorem words_append_run (a b : List Char) {run : List Char} (some : run ≠ [])
    (separators : ∀ c ∈ run, isAlphanumeric c = false) :
    words (a ++ run ++ b) = words a ++ words b := by
  obtain ⟨c, rest, rfl⟩ := List.exists_cons_of_ne_nil some
  obtain ⟨here, later⟩ := List.forall_mem_cons.mp separators
  rw [List.append_assoc, List.cons_append, words_append a _ here, words_run later]

/-- What a run of separators keeps apart is joined on either side of it. -/
theorem pascal_append_run (a b : String) {run : String} (some : run ≠ "")
    (separators : ∀ c ∈ run.toList, isAlphanumeric c = false) :
    pascal (a ++ run ++ b) = pascal a ++ pascal b := by
  have nonempty : run.toList ≠ [] := fun empty => some (String.toList_eq_nil_iff.mp empty)
  have joined : pascalChars (a ++ run ++ b).toList =
      pascalChars a.toList ++ pascalChars b.toList := by
    unfold pascalChars
    rw [String.toList_append, String.toList_append, words_append_run _ _ nonempty separators,
      List.flatMap_append]
  unfold pascal
  rw [joined, String.ofList_append]

/-- A joined name begins with the capital of its first letter or digit. -/
theorem pascalChars_first {name : List Char} {c : Char}
    (first : name.find? isAlphanumeric = some c) :
    ∃ rest, pascalChars name = upperChar c ++ rest := by
  obtain ⟨letter, before, after, rfl, separators⟩ := List.find?_eq_some_iff_append.mp first
  have visible : c ≠ ' ' := by
    rintro rfl
    exact absurd letter (by decide)
  have skipped : words (before ++ c :: after) = words (c :: after) :=
    words_run (fun d member => by simpa using separators d member) _
  have unchanged : blanked c = c := if_pos letter
  obtain ⟨s, apart⟩ := humpsApart_cons c (after.map blanked)
  obtain ⟨piece, pieces, cut, -⟩ := fields_cons visible s
  refine ⟨piece ++ pieces.flatMap capitalized, ?_⟩
  unfold pascalChars
  rw [skipped, words_eq, List.map_cons, unchanged, apart, cut, List.flatMap_cons, capitalized,
    List.append_assoc]

/-! ## Joining again -/

/-- The name of a type is joined as it is. -/
theorem pascal_pascal {name : String} (ascii : IsAscii name.toList) :
    pascal (pascal name) = pascal name := by
  obtain ⟨each, head⟩ := pascalChars_ascii ascii
  have again : pascalChars (pascalChars name.toList) = pascalChars name.toList := by
    rw [pascalChars_of_alphanumeric fun c member => (each c member).2]
    cases joined : pascalChars name.toList with
    | nil => rfl
    | cons c rest =>
        have capital : upperChar c = [c] := head c (by rw [joined]; rfl)
        rw [capitalized, capital]
        rfl
  unfold pascal
  rw [String.toList_ofList, again]

/-- The name of a variable is joined to the name of a type as what it was made of. -/
theorem pascal_camel {name : String} (ascii : IsAscii name.toList) :
    pascal (camel name) = pascal name := by
  unfold pascal camel
  rw [String.toList_ofList, pascalChars_camelChars ascii]

/-- The name of a variable is that of the same variable. -/
theorem camel_camel {name : String} (ascii : IsAscii name.toList) :
    camel (camel name) = camel name := by
  have again : camelChars (camelChars name.toList) = camelChars name.toList := by
    have joined : pascalChars (camelChars name.toList) = pascalChars name.toList :=
      pascalChars_camelChars ascii
    rw [camelChars, joined]
    rfl
  unfold camel
  rw [String.toList_ofList, again]

/-- Joining a name again changes nothing, and neither does joining it before it becomes part of
the name of a hook or a key function. -/
structure JoinedOnce (name : String) : Prop where
  pascalTwice : pascal (pascal name) = pascal name
  pascalOfCamel : pascal (camel name) = pascal name
  camelTwice : camel (camel name) = camel name
  hook : camel ("use-" ++ camel name) = "use" ++ pascal name
  key : camel ("get-" ++ camel name ++ "-key") = "get" ++ pascal name ++ "Key"

theorem joinedOnce {name : String} (ascii : IsAscii name.toList) : JoinedOnce name where
  pascalTwice := pascal_pascal ascii
  pascalOfCamel := pascal_camel ascii
  camelTwice := camel_camel ascii
  hook := by rw [camel_use, pascal_camel ascii]
  key := by rw [camel_get_key, pascal_camel ascii]

end ClientForge.Naming
