/-
# ClientForge.Proofs.Naming.Routes -- the variables of a template literal

A path becomes the body of a template literal, in which every parameter stands as a variable.
What such a body reads is found without the path, by the rules of template literals
(`variables?`): a dollar sign with a brace behind it opens an expression, a backslash takes the
meaning of the next character away, and a backtick would end the literal too early.

A path without these three signs is read back to the variables of its parameters, in order
(`variables?_templateRoute`): nothing else in it can open an expression, and no name of a
variable can close its own.  A dollar sign does no harm as long as no brace of the path itself
stands behind it (`isLiteral`).
-/
import ClientForge.Proofs.Naming.Characters

namespace ClientForge.Naming

set_option autoImplicit false

/-- Where a reader of a template literal stands. -/
inductive TemplateState where
  | text
  | escaped
  | dollar
  /-- Inside an expression; what has been read of it is in reverse. -/
  | expression (read : List Char)

/-- The expressions in the body of a template literal, in order; none if the body does not
reach its end as a template literal. -/
def expressions? : TemplateState → List Char → Option (List (List Char))
  | .text, [] => some []
  | .text, c :: rest =>
    if c = '\x60' then none
    else if c = '\\' then expressions? .escaped rest
    else if c = '$' then expressions? .dollar rest
    else expressions? .text rest
  | .escaped, [] => none
  | .escaped, _ :: rest => expressions? .text rest
  | .dollar, [] => some []
  | .dollar, c :: rest =>
    if c = '\x7b' then expressions? (.expression []) rest
    else if c = '\x60' then none
    else if c = '\\' then expressions? .escaped rest
    else if c = '$' then expressions? .dollar rest
    else expressions? .text rest
  | .expression _, [] => none
  | .expression read, c :: rest =>
    if c = '\x7d' then (expressions? .text rest).map (read.reverse :: ·)
    else expressions? (.expression (c :: read)) rest

/-- The variables that a template literal with this body reads. -/
def variables? (body : String) : Option (List String) :=
  (expressions? .text body.toList).map (List.map String.ofList)

/-- A character that means nothing to a template literal. -/
def IsPlain (c : Char) : Prop := c ≠ '\x60' ∧ c ≠ '\\' ∧ c ≠ '$'

instance (c : Char) : Decidable (IsPlain c) :=
  inferInstanceAs (Decidable (c ≠ '\x60' ∧ c ≠ '\\' ∧ c ≠ '$'))

/-- The parameters in a path. -/
def parameterNames : List RoutePart → List (List Char)
  | [] => []
  | .char _ :: rest => parameterNames rest
  | .parameter name :: rest => name :: parameterNames rest

theorem mem_parameterNames {parts : List RoutePart} {name : List Char} :
    name ∈ parameterNames parts ↔ .parameter name ∈ parts := by
  induction parts with
  | nil => simp [parameterNames]
  | cons part rest ih => cases part <;> simp [parameterNames, ih]

/-- The characters of a path outside its parameters are characters of the path. -/
theorem mem_of_char_mem {read : Option (List Char)} {path : List Char} {c : Char}
    (member : .char c ∈ routeParts read path) : c ∈ path := by
  fun_induction routeParts read path with
  | case1 => cases member
  | case2 d rest opens ih => exact List.mem_cons_of_mem _ (ih member)
  | case3 d rest closed ih =>
      rcases List.mem_cons.mp member with same | later
      · cases same
        exact List.mem_cons_self
      · exact List.mem_cons_of_mem _ (ih later)
  | case4 name rest ih =>
      rcases List.mem_cons.mp member with same | later
      · cases same
      · exact List.mem_cons_of_mem _ (ih later)
  | case5 name d rest goesOn ih => exact List.mem_cons_of_mem _ (ih member)

/-- An expression without a closing brace is read to its end. -/
theorem expressions?_expression {name rest read : List Char} (isOpen : '\x7d' ∉ name) :
    expressions? (.expression read) (name ++ '\x7d' :: rest) =
      (expressions? .text rest).map ((read.reverse ++ name) :: ·) := by
  induction name generalizing read with
  | nil => simp [expressions?]
  | cons c name ih =>
      rw [List.mem_cons, not_or] at isOpen
      rw [List.cons_append, expressions?, if_neg (Ne.symm isOpen.1), ih isOpen.2]
      simp

/-- What stands between the parameters means nothing to a template literal: no character is a
backtick or a backslash, and none is a dollar sign in front of a brace. -/
def isLiteral : List RoutePart → Bool
  | [] => true
  | .parameter _ :: rest => isLiteral rest
  | .char c :: rest =>
    c != '\x60' && c != '\\' && !(c == '$' && rest.head? == some (.char '\x7b')) && isLiteral rest

theorem isLiteral_of_plain {parts : List RoutePart} (plain : ∀ c, .char c ∈ parts → IsPlain c) :
    isLiteral parts = true := by
  induction parts with
  | nil => rfl
  | cons part rest ih =>
      have later := ih fun c member => plain c (List.mem_cons_of_mem _ member)
      cases part with
      | parameter name => exact later
      | char c =>
          obtain ⟨backtick, backslash, dollar⟩ := plain c List.mem_cons_self
          simp [isLiteral, backtick, backslash, dollar, later]

/-- The parts of a path, one after the other.  A dollar sign in front of them makes no difference,
unless it stands in front of a brace. -/
theorem expressions?_parts {parts : List RoutePart} (literal : isLiteral parts = true) :
    expressions? .text (parts.flatMap RoutePart.text) =
        some ((parameterNames parts).map camelChars) ∧
      (parts.head? ≠ some (.char '\x7b') → expressions? .dollar (parts.flatMap RoutePart.text) =
        some ((parameterNames parts).map camelChars)) := by
  induction parts with
  | nil => exact ⟨rfl, fun _ => rfl⟩
  | cons part rest ih =>
      cases part with
      | char c =>
          simp only [isLiteral, Bool.and_eq_true, bne_iff_ne, ne_eq, Bool.not_eq_true',
            Bool.and_eq_false_iff, beq_eq_false_iff_ne] at literal
          obtain ⟨⟨⟨backtick, backslash⟩, dollar⟩, later⟩ := literal
          obtain ⟨text, behind⟩ := ih later
          have onward : (if c = '$' then expressions? .dollar (rest.flatMap RoutePart.text)
              else expressions? .text (rest.flatMap RoutePart.text)) =
                some ((parameterNames rest).map camelChars) := by
            split
            · rename_i same
              exact behind (dollar.resolve_left (· same))
            · exact text
          rw [List.flatMap_cons, RoutePart.text, List.singleton_append, parameterNames]
          constructor
          · rw [expressions?, if_neg backtick, if_neg backslash, onward]
          · intro first
            have brace : c ≠ '\x7b' := by
              rintro rfl
              exact first rfl
            rw [expressions?, if_neg brace, if_neg backtick, if_neg backslash, onward]
      | parameter name =>
          obtain ⟨text, -⟩ := ih literal
          have isOpen : '\x7d' ∉ camelChars name := fun member => by
            have closing := camel_isNameChar _ member
            revert closing
            decide
          have read : expressions? (.expression []) (camelChars name ++
              '\x7d' :: rest.flatMap RoutePart.text) =
                some ((parameterNames (.parameter name :: rest)).map camelChars) := by
            rw [expressions?_expression isOpen, text]
            rfl
          rw [List.flatMap_cons, RoutePart.text, List.append_assoc, List.append_assoc]
          exact ⟨read, fun _ => read⟩

/-- The template literal for a path reads the variables of the path's parameters. -/
theorem variables?_of_isLiteral {path : String}
    (literal : isLiteral (routeParts none path.toList) = true) :
    variables? (templateRoute path) = some ((parameterNames (routeParts none path.toList)).map
      fun name => camel (String.ofList name)) := by
  unfold variables? templateRoute
  rw [String.toList_ofList, (expressions?_parts literal).1, Option.map_some, List.map_map]
  refine congrArg some (List.map_congr_left fun name _ => ?_)
  simp [camel, Function.comp]

theorem variables?_templateRoute {path : String} (plain : ∀ c ∈ path.toList, IsPlain c) :
    variables? (templateRoute path) = some ((parameterNames (routeParts none path.toList)).map
      fun name => camel (String.ofList name)) :=
  variables?_of_isLiteral (isLiteral_of_plain fun c member => plain c (mem_of_char_mem member))

end ClientForge.Naming
