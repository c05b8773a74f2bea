/-
# ClientForge.Proofs.Types.Grouping -- how a type is grouped does not depend on its literals

Whether a text needs parentheses is decided by counting its brackets, and the count does not
know of strings.  Parentheses that a connective inside a string causes do no harm; what the
count must not do is to be wrong behind a string.  So it is enough that every string closes as
many brackets as it opens, and that no line ends in a string that is written as it is
(`TypeExpr.Readable`): then the text of an expression has the tree of the expression
(`renders_tree`), which is put together without looking at literals, and a relabelled
expression has the relabelled tree (`tree_relabel`).

So a schema with other literals has the same type with other literals, as its text is read
(`resolve_relabelled`).  A string that closes a bracket which it did not open takes what
follows it out of its group (`resolve_closing_bracket`).
-/
import Mathlib.Logic.Equiv.Basic
import ClientForge.Proofs.Types.Relabelling

namespace ClientForge

set_option autoImplicit false

open TypeTree (Same)
open TypeText (IsWord)

namespace TypeTree

/-! ## Trees with other literals -/

/-- A leaf with another string, in the same quotes, if it is a string. -/
def relabelText (f : String → String) (text : String) : String :=
  match Script.string? text.toList with
  | some s => if text.toList.head? = some '\'' then Literal.quote (f s) else Json.quote (f s)
  | none => text

mutual

/-- A type with other strings in its leaves; what its members go by stays. -/
def relabel (f : String → String) : TypeTree → TypeTree
  | .leaf text => .leaf (relabelText f text)
  | .array item => .array (relabel f item)
  | .tuple items => .tuple (relabelAll f items)
  | .object members => .object (relabelMembers f members)
  | .joined c members => .joined c (relabelAll f members)

def relabelAll (f : String → String) : List TypeTree → List TypeTree
  | [] => []
  | t :: rest => relabel f t :: relabelAll f rest

def relabelMembers (f : String → String) : List (TreeKey × TypeTree) → List (TreeKey × TypeTree)
  | [] => []
  | (key, t) :: rest => (key, relabel f t) :: relabelMembers f rest

end

variable (f : String → String)

theorem relabelAll_eq (ts : List TypeTree) : relabelAll f ts = ts.map (relabel f) := by
  induction ts with
  | nil => rfl
  | cons t rest ih => rw [relabelAll, ih, List.map_cons]

theorem relabelMembers_eq (ms : List (TreeKey × TypeTree)) :
    relabelMembers f ms = ms.map fun m => (m.1, relabel f m.2) := by
  induction ms with
  | nil => rfl
  | cons m rest ih =>
      obtain ⟨key, t⟩ := m
      rw [relabelMembers, ih, List.map_cons]

/-- The same type stays the same type with other literals. -/
theorem Same.relabel {t u : TypeTree} (same : Same t u) : Same (t.relabel f) (u.relabel f) := by
  induction same with
  | refl t => exact .refl _
  | symm _ ih => exact ih.symm
  | trans _ _ first second => exact first.trans second
  | array _ ih =>
      rw [TypeTree.relabel, TypeTree.relabel]
      exact .array ih
  | item _ ih =>
      simp only [TypeTree.relabel, relabelAll_eq, List.map_append, List.map_cons]
      exact .item ih
  | member _ ih =>
      simp only [TypeTree.relabel, relabelMembers_eq, List.map_append, List.map_cons]
      exact .member ih
  | part _ ih =>
      simp only [TypeTree.relabel, relabelAll_eq, List.map_append, List.map_cons]
      exact .part ih
  | nested =>
      simp only [TypeTree.relabel, relabelAll_eq, List.map_append, List.map_cons]
      exact .nested
  | repeated =>
      simp only [TypeTree.relabel, relabelAll_eq, List.map_append, List.map_cons]
      exact .repeated
  | single =>
      simp only [TypeTree.relabel, relabelAll_eq, List.map_cons, List.map_nil]
      exact .single

/-! ## Leaves -/

theorem head?_quote (s : String) : (Literal.quote s).toList.head? = some '\'' := by
  rw [Literal.quote, String.toList_ofList, List.cons_append, List.head?_cons]

theorem head?_jsonQuote (s : String) : (Json.quote s).toList.head? = some '"' := by
  rw [Json.quote, String.toList_ofList, List.cons_append, List.head?_cons]

theorem relabelText_quote {s : String} (inLine : Text.InLine s) :
    relabelText f (Literal.quote s) = Literal.quote (f s) := by
  unfold relabelText
  rw [Script.string?_quote inLine]
  exact if_pos (head?_quote s)

theorem relabelText_jsonQuote (s : String) :
    relabelText f (Json.quote s) = Json.quote (f s) := by
  unfold relabelText
  rw [Script.string?_jsonQuote]
  exact if_neg (by rw [head?_jsonQuote]; decide)

/-- A text that does not start with a quote is no string. -/
theorem relabelText_other {text : String}
    (other : ∀ quote, text.toList.head? = some quote → Script.isQuote quote = false) :
    relabelText f text = text := by
  have none : Script.string? text.toList = none := by
    cases chars : text.toList with
    | nil => rfl
    | cons c rest => rw [Script.string?, other c (by rw [chars, List.head?_cons])]; rfl
  unfold relabelText
  rw [none]

theorem relabelText_word {text : String} (word : ∀ c ∈ text.toList, TypeText.isWordChar c = true) :
    relabelText f text = text := by
  refine relabelText_other f fun quote start => Bool.eq_false_iff.mpr fun quotes => ?_
  have isWord := word quote (List.mem_of_head? start)
  simp only [Script.isQuote, Bool.or_eq_true, beq_iff_eq] at quotes
  rcases quotes with rfl | rfl <;> exact absurd isWord (by decide)

theorem relabel_word {text : String} (word : IsWord text) :
    (TypeTree.leaf text).relabel f = .leaf text := by
  rw [relabel, relabelText_word f word.2]

theorem relabel_unknown : TypeTree.unknown.relabel f = .unknown := relabel_word f (by decide)

theorem relabel_ofMembers (c : Connective) (ts : List TypeTree) :
    (ofMembers c ts).relabel f = ofMembers c (ts.map (relabel f)) := by
  match ts with
  | [] => exact relabel_unknown f
  | [t] => rfl
  | t :: u :: rest => exact congrArg (TypeTree.joined c) (relabelAll_eq f (t :: u :: rest))

theorem isUnknown_relabelText (text : String) :
    (TypeTree.leaf (relabelText f text)).isUnknown = (TypeTree.leaf text).isUnknown := by
  have apart {text : String} {quote : Char} (start : text.toList.head? = some quote)
      (other : quote ≠ 'u') : (TypeTree.leaf text).isUnknown = false := by
    rw [isUnknown, beq_eq_false_iff_ne]
    rintro rfl
    exact other (Option.some.inj start).symm
  unfold relabelText
  split
  · rename_i s read
    -- the text is a string, so it starts with a quote
    have quoted : ∃ quote, text.toList.head? = some quote ∧ quote ≠ 'u' := by
      cases chars : text.toList with
      | nil =>
          rw [chars] at read
          cases read
      | cons c rest =>
          rw [chars, Script.string?] at read
          split at read
          · rename_i quotes
            refine ⟨c, rfl, ?_⟩
            rintro rfl
            revert quotes
            decide
          · cases read
    obtain ⟨quote, start, other⟩ := quoted
    rw [apart start other]
    split
    · exact apart (head?_quote _) (by decide)
    · exact apart (head?_jsonQuote _) (by decide)
  · rfl

mutual

/-- Whether something is known about a type does not depend on its literals. -/
theorem isUnknown_relabel : ∀ t : TypeTree, (t.relabel f).isUnknown = t.isUnknown
  | .leaf text => isUnknown_relabelText f text
  | .array _ => rfl
  | .tuple _ => rfl
  | .object _ => rfl
  | .joined _ members => allUnknown_relabelAll members

theorem allUnknown_relabelAll : ∀ ts : List TypeTree, allUnknown (relabelAll f ts) = allUnknown ts
  | [] => rfl
  | t :: rest => by
      rw [relabelAll, allUnknown, allUnknown, isUnknown_relabel t, allUnknown_relabelAll rest]

end

theorem relabel_orNull (t : TypeTree) : t.orNull.relabel f = (t.relabel f).orNull := by
  have null : TypeTree.null.relabel f = .null := relabel_word f (by decide)
  unfold orNull
  rw [isUnknown_relabel]
  split
  · rfl
  · rw [relabel, relabelAll_eq, List.map_cons, List.map_cons, List.map_nil, null]

end TypeTree

/-! ## Trees of relabelled expressions -/

section Literals

open TypeTree

variable (f : String → String)

/-- A literal of JSON with other strings has the tree with other strings. -/
theorem jsonTree_relabel (v : Value) : jsonTree (v.relabel f) = (jsonTree v).relabel f := by
  induction v with
  | atom a =>
      by_cases string : ∃ s, a = .str s
      · obtain ⟨s, rfl⟩ := string
        exact congrArg TypeTree.leaf (relabelText_jsonQuote f s).symm
      · have same : (Value.atom a).relabel f = .atom a := by
          cases a with
          | str s => exact absurd ⟨s, rfl⟩ string
          | _ => rfl
        rw [same, jsonTree, TypeTree.relabel]
        cases written : Json.printScalar? a with
        | none => rfl
        | some text =>
            rcases TypeText.printScalar?_eq_some written with ⟨s, isString, -⟩ | word
            · exact absurd ⟨s, isString⟩ string
            · exact congrArg TypeTree.leaf (relabelText_word f word.2).symm
  | list items ih =>
      rw [Value.relabel, jsonTree, jsonTree, TypeTree.relabel]
      refine congrArg TypeTree.tuple ?_
      induction items with
      | nil => rfl
      | cons v rest later =>
          rw [Value.relabelItems, jsonTrees, jsonTrees, relabelAll, ih v List.mem_cons_self,
            later fun w member => ih w (List.mem_cons_of_mem _ member)]
  | map entries ih =>
      rw [Value.relabel, jsonTree, jsonTree, TypeTree.relabel]
      refine congrArg TypeTree.object ?_
      induction entries with
      | nil => rfl
      | cons entry rest later =>
          obtain ⟨k, v⟩ := entry
          rw [Value.relabelEntries, jsonMembers, jsonMembers, relabelMembers,
            ih _ List.mem_cons_self,
            later fun e member => ih e (List.mem_cons_of_mem _ member)]

theorem literalTree_relabel {v : Value} (inLine : ∀ s, v = .str s → Text.InLine s) :
    literalTree (v.relabel f) = (literalTree v).relabel f := by
  have other {w : Value} (noString : ∀ s, w ≠ .str s) : literalTree w = jsonTree w := by
    unfold literalTree
    split
    · exact absurd rfl (noString _)
    · rfl
  by_cases string : ∃ s, v = .str s
  · obtain ⟨s, rfl⟩ := string
    exact congrArg TypeTree.leaf (relabelText_quote f (inLine s rfl)).symm
  · have noString : ∀ s, v ≠ .str s := fun s same => string ⟨s, same⟩
    have noString' : ∀ s, v.relabel f ≠ .str s := by
      rcases v with a | items | entries
      · cases a with
        | str s => exact absurd rfl (noString s)
        | _ => exact noString
      · exact fun s same => by cases same
      · exact fun s same => by cases same
    rw [other noString, other noString', jsonTree_relabel]

end Literals

namespace TypeExpr

mutual

/-- What the texts in an expression have to keep to so that none is taken for anything else:
strings close as many brackets as they open, those that are written as they are stay in their
line, and names have a letter or a digit. -/
def Readable : TypeExpr → Prop
  | .unknown => True
  | .primitive _ => True
  | .named schema => ∃ c ∈ schema.toList, Text.isAlphanumeric c = true
  | .literal value => value.Readable ∧ (Literal.typeText? value).isSome = true
  | .array item => Readable item
  | .union members => AllReadable members
  | .choice members => AllReadable members
  | .intersection members => AllReadable members
  | .object members => MembersReadable members
  | .nullable base => Readable base

def AllReadable : List TypeExpr → Prop
  | [] => True
  | e :: rest => Readable e ∧ AllReadable rest

def MembersReadable : List (MemberKey × TypeExpr) → Prop
  | [] => True
  | (key, e) :: rest =>
    (∀ name optional, key = .property name optional → Text.Balanced name ∧ Text.Raw name) ∧
      Readable e ∧ MembersReadable rest

end

mutual

/-- **The text of a readable expression has the tree of the expression.** -/
theorem renders_tree : ∀ e : TypeExpr, e.Readable → e.Renders e.tree
  | .unknown, _ => .unknown
  | .primitive p, _ => .primitive p
  | .named schema, readable => .named readable
  | .literal v, ⟨readable, written⟩ => by
      obtain ⟨text, written⟩ := Option.isSome_iff_exists.mp written
      exact .literal readable written
  | .array item, readable => .array (renders_tree item readable)
  | .union members, readable => .union (renders_trees members readable)
  | .choice members, readable => .choice (renders_trees members readable)
  | .intersection members, readable => .intersection (renders_trees members readable)
  | .object members, readable => .object (renders_memberTrees members readable)
  | .nullable base, readable => .nullable (renders_tree base readable)

theorem renders_trees : ∀ es : List TypeExpr, AllReadable es → List.Forall₂ Renders es (trees es)
  | [], _ => .nil
  | e :: rest, ⟨first, later⟩ => .cons (renders_tree e first) (renders_trees rest later)

theorem renders_memberTrees : ∀ members : List (MemberKey × TypeExpr), MembersReadable members →
    List.Forall₂ RendersMember members (memberTrees members)
  | [], _ => .nil
  | (_, e) :: rest, ⟨key, first, later⟩ =>
      .cons ⟨rfl, key, renders_tree e first⟩ (renders_memberTrees rest later)

end

section Relabel

variable (f : String → String)

mutual

/-- **An expression with other literals has the tree with other literals.** -/
theorem tree_relabel : ∀ e : TypeExpr, e.Readable → (e.relabel f).tree = e.tree.relabel f
  | .unknown, _ => by
      rw [relabel, tree, TypeTree.relabel_unknown]
  | .primitive p, _ => by
      rw [relabel, tree, TypeTree.relabel_word f (by cases p <;> decide)]
  | .named schema, readable => by
      rw [relabel, tree, TypeTree.relabel_word f (isWord_pascal readable)]
  | .literal v, ⟨readable, _⟩ => by
      rw [relabel, tree, tree, literalTree_relabel f readable.inLine]
  | .array item, readable => by
      rw [relabel, tree, tree, tree_relabel item readable, TypeTree.relabel]
  | .union members, readable => by
      rw [relabel, tree, tree, trees_relabel members readable, TypeTree.relabel_ofMembers]
  | .choice members, readable => by
      rw [relabel, tree, tree, trees_relabel members readable, TypeTree.relabel_ofMembers]
  | .intersection members, readable => by
      rw [relabel, tree, tree, trees_relabel members readable, TypeTree.relabel_ofMembers]
  | .object members, readable => by
      rw [relabel, tree, tree, memberTrees_relabel members readable, TypeTree.relabel]
  | .nullable base, readable => by
      rw [relabel, tree, tree, tree_relabel base readable, TypeTree.relabel_orNull]

theorem trees_relabel : ∀ es : List TypeExpr, AllReadable es →
    trees (relabelList f es) = (trees es).map (TypeTree.relabel f)
  | [], _ => rfl
  | e :: rest, ⟨first, later⟩ => by
      rw [relabelList, trees, trees, tree_relabel e first, trees_relabel rest later, List.map_cons]

theorem memberTrees_relabel : ∀ members : List (MemberKey × TypeExpr), MembersReadable members →
    memberTrees (relabelMembers f members) = TypeTree.relabelMembers f (memberTrees members)
  | [], _ => rfl
  | (key, e) :: rest, ⟨_, first, later⟩ => by
      rw [relabelMembers, memberTrees, memberTrees, tree_relabel e first,
        memberTrees_relabel rest later, TypeTree.relabelMembers]

end

end Relabel

/-- A readable expression is read as its tree. -/
theorem Readable.read? {e : TypeExpr} (readable : e.Readable) :
    ∃ t, TypeText.read? e.render = some t ∧ Same t e.tree :=
  (renders_tree e readable).shown.read?_eq_some

end TypeExpr

/-! ## Schemas -/

namespace Schema

/-- **Other literals do not change how a type is grouped.**  A schema with other literals fails
as the schema does; and if both types are readable, the one is the other with other literals,
as their texts are read, and it needs the same imports. -/
theorem resolve_relabelled (f : String → String) (useDates inlineNamed : Bool) (schema : Value) :
    (∀ failure, resolve useDates (relabelled f schema) inlineNamed = .error failure ↔
      resolve useDates schema inlineNamed = .error failure) ∧
    ∀ e, read useDates inlineNamed schema = .ok e → e.Readable → (e.relabel f).Readable →
      ∃ type type' t u, resolve useDates schema inlineNamed = .ok type ∧
        resolve useDates (relabelled f schema) inlineNamed = .ok type' ∧
        type'.imports = type.imports ∧ TypeText.read? type.text = some t ∧
        TypeText.read? type'.text = some u ∧ Same u (t.relabel f) := by
  constructor
  · intro failure
    unfold resolve
    rw [read_relabelled]
    cases read useDates inlineNamed schema with
    | error other => rfl
    | ok e =>
        constructor
        · intro fails
          cases fails
        · intro fails
          cases fails
  · intro e run readable readable'
    obtain ⟨t, readText, same⟩ := readable.read?
    obtain ⟨u, readText', same'⟩ := readable'.read?
    refine ⟨e.resolved, (e.relabel f).resolved, t, u, ?_, ?_, e.imports_relabel f, readText,
      readText', ?_⟩
    · rw [resolve, run, Except.map]
    · rw [resolve, read_relabelled, run, Except.map, Except.map]
    · have relabelled : Same (t.relabel f) (e.tree.relabel f) := same.relabel f
      rw [TypeExpr.tree_relabel f e readable] at same'
      exact same'.trans relabelled.symm

/-- An array of two words. -/
def arrayOfWords (first second : String) : Value :=
  .map [(.str "type", .str "array"),
    (.str "items", .map [(.str "enum", .list [.str first, .str second])])]

/-- Words in parentheses, with a connective in them. -/
def wrapped (s : String) : String := "(" ++ s ++ " | )"

theorem readable_str {s : String} (balanced : Text.Balanced s) (inLine : Text.InLine s) :
    (TypeExpr.literal (.str s)).Readable := by
  refine ⟨⟨⟨fun text part => ?_, fun entries part => by cases part⟩, fun text same => ?_⟩, rfl⟩
  · cases part
    exact balanced
  · cases same
    exact inLine

/-- Connectives and parentheses in literals are no connectives and parentheses of the type. -/
theorem resolve_relabelled_wrapped :
    resolve false (arrayOfWords "a" "b") false = .ok ⟨"('a' | 'b')[]", []⟩ ∧
      resolve false (relabelled wrapped (arrayOfWords "a" "b")) false =
        .ok ⟨"('(a | )' | '(b | )')[]", []⟩ ∧
      ∃ t u, TypeText.read? "('a' | 'b')[]" = some t ∧
        TypeText.read? "('(a | )' | '(b | )')[]" = some u ∧ Same u (t.relabel wrapped) := by
  have run : resolve false (arrayOfWords "a" "b") false = .ok ⟨"('a' | 'b')[]", []⟩ := by decide
  have run' : resolve false (relabelled wrapped (arrayOfWords "a" "b")) false =
      .ok ⟨"('(a | )' | '(b | )')[]", []⟩ := by decide
  have readable {a b : String} (first : (TypeExpr.literal (.str a)).Readable)
      (second : (TypeExpr.literal (.str b)).Readable) :
      (TypeExpr.array (.choice [.literal (.str a), .literal (.str b)])).Readable :=
    ⟨first, second, trivial⟩
  obtain ⟨type, type', t, u, resolved, resolved', -, read, read', same⟩ :=
    (resolve_relabelled wrapped false false (arrayOfWords "a" "b")).2
      (.array (.choice [.literal (.str "a"), .literal (.str "b")])) rfl
      (readable (readable_str (by decide) (by decide)) (readable_str (by decide) (by decide)))
      (readable (readable_str (by decide) (by decide)) (readable_str (by decide) (by decide)))
  obtain rfl := Except.ok.inj (run.symm.trans resolved)
  obtain rfl := Except.ok.inj (run'.symm.trans resolved')
  exact ⟨run, run', t, u, read, read', same⟩

/-- A literal that closes a bracket changes how the type around it is grouped: with the strings
exchanged, the array applies to both alternatives. -/
theorem resolve_closing_bracket :
    Function.Injective (Equiv.swap "a)" "a") ∧
      resolve false (arrayOfWords "a)" "b") false = .ok ⟨"'a)' | 'b'[]", []⟩ ∧
      resolve false (relabelled (Equiv.swap "a)" "a") (arrayOfWords "a)" "b")) false =
        .ok ⟨"('a' | 'b')[]", []⟩ ∧
      ∃ t u, TypeText.read? "'a)' | 'b'[]" = some t ∧ TypeText.read? "('a' | 'b')[]" = some u ∧
        ¬ Same u (t.relabel (Equiv.swap "a)" "a")) := by
  refine ⟨Equiv.injective _, by decide, by decide,
    .joined .union [.leaf "'a)'", .array (.leaf "'b'")],
    .array (.joined .union [.leaf "'a'", .leaf "'b'"]), rfl, rfl, fun same => ?_⟩
  have exchanged : TypeTree.relabelText (Equiv.swap "a)" "a") "'a)'" = "'a'" := by decide
  have kept : TypeTree.relabelText (Equiv.swap "a)" "a") "'b'" = "'b'" := by decide
  simp only [TypeTree.relabel, TypeTree.relabelAll, exchanged, kept] at same
  -- a type whose arrays have no values tells an array of a union from a union with an array
  let I : TypeTree.Interpretation Unit := ⟨fun _ => Set.univ, fun _ => ∅, fun _ => ∅, fun _ => ∅⟩
  have alternative : () ∈ I.values (.joined .union [.leaf "'a'", .array (.leaf "'b'")]) :=
    ⟨Set.univ, List.mem_cons_self, trivial⟩
  rw [← same.values_eq I] at alternative
  exact alternative

end Schema

end ClientForge
