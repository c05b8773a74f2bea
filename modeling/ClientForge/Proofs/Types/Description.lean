/-
# ClientForge.Proofs.Types.Description -- the text of a type describes its schema

A schema is read as a type expression by one rule (`read_map_eq`), and each rule leads from the
types of the schemas inside to the type of the schema itself: `Conveys` says that a schema
stands for a type and that the expression renders it.  So the text of a legible schema, read
back, is the type that the schema stands for (`resolve_describes`).
-/
import ClientForge.Proofs.Types.Reading
import ClientForge.Proofs.Types.Rendering
import ClientForge.Proofs.Types.Structure

namespace ClientForge

set_option autoImplicit false

open TypeTree (Same)

namespace Schema

open TypeExpr (Renders RendersMember)

/-! ## Parts of a schema -/

/-- Trees for the parts of a schema, one by one. -/
theorem exists_trees {α : Type} {R : α → TypeTree → Prop} {xs : List α} {es : List TypeExpr}
    (each : List.Forall₂ (fun x e => ∃ t, R x t ∧ e.Renders t) xs es) :
    ∃ ts : List TypeTree, xs.length = ts.length ∧ (∀ x t, (x, t) ∈ xs.zip ts → R x t) ∧
      List.Forall₂ Renders es ts := by
  have trees : ∃ ts : List TypeTree, List.Forall₂ R xs ts ∧ List.Forall₂ Renders es ts := by
    induction each with
    | nil => exact ⟨[], .nil, .nil⟩
    | cons first _ ih =>
        obtain ⟨t, related, renders⟩ := first
        obtain ⟨ts, relatedAll, rendersAll⟩ := ih
        exact ⟨t :: ts, .cons related relatedAll, .cons renders rendersAll⟩
  obtain ⟨ts, related, renders⟩ := trees
  exact ⟨ts, related.length_eq, fun x t pair => List.forall₂_zip related pair, renders⟩

section Parts

variable {useDates inlineNamed : Bool} {entries : Entries}

/-- The schema stands for a type, and the expression renders it. -/
def Conveys (useDates inlineNamed : Bool) (v : Value) (e : TypeExpr) : Prop :=
  ∃ t, Describes useDates inlineNamed v t ∧ e.Renders t

theorem renders_withNull {e : TypeExpr} {t : TypeTree} (base : e.Renders t) :
    (withNull entries e).Renders (nulled entries t) := by
  unfold withNull nulled
  split
  · exact base.nullable
  · exact base

/-- Every schema that stands in the map conveys the type that is read from it. -/
def ReadsChildren (useDates : Bool) (entries : Entries) : Prop :=
  ∀ v, Child entries v → ∀ e, read useDates false v = .ok e → Conveys useDates false v e

variable (children : ReadsChildren useDates entries)
include children

theorem readAt_conveys {key : String} (under : key ∈ ["items", "additionalProperties"])
    {e : TypeExpr} (run : readAt useDates key entries = .ok e) :
    (Entries.get? key entries = none ∧ e = .unknown) ∨
      ∃ v, Entries.get? key entries = some v ∧ Conveys useDates false v e := by
  rw [readAt_eq] at run
  cases found : Entries.get? key entries with
  | none =>
      rw [found] at run
      cases run
      exact Or.inl ⟨rfl, rfl⟩
  | some v =>
      rw [found] at run
      exact Or.inr ⟨v, rfl, children v (.under under found) e run⟩

theorem readMembersAt_conveys {rule : Rule} {key : String} {c : Connective}
    (joins : rule.joins? = some (key, c)) (given : Entries.given key entries = true)
    {es : List TypeExpr} (run : readMembersAt useDates key entries = .ok es) :
    ∃ v items, Entries.get? key entries = some v ∧ v.elements? = some items ∧
      List.Forall₂ (fun item e => Conveys useDates false item e) items es := by
  rw [readMembersAt_eq] at run
  cases found : Entries.get? key entries with
  | none =>
      unfold Entries.given at given
      rw [found] at given
      cases given
  | some v =>
      rw [found] at run
      replace run : readMembers useDates v = .ok es := run
      refine ⟨v, ?_⟩
      unfold readMembers at run
      split at run
      · rename_i items
        rw [readItems_eq] at run
        refine ⟨items, rfl, rfl, List.forall₂_iff_zip.mpr ⟨(Attempt.mapM_eq_ok run).length_eq, ?_⟩⟩
        intro item e pair
        have read := List.forall₂_zip (Attempt.mapM_eq_ok run) pair
        exact children item (.item joins found rfl (List.of_mem_zip pair).1) e read
      · rename_i noList
        split at run
        · rename_i parts elements
          cases run
          refine ⟨parts, rfl, elements, ?_⟩
          rw [List.forall₂_map_right_iff, List.forall₂_same]
          intro item inside
          obtain ⟨a, rfl⟩ := exists_atom noList elements inside
          exact ⟨.unknown, .atom, .unknown⟩
        · cases run

omit children in
theorem literal_renders {v : Value} (tame : v.TameTexts) {e : TypeExpr}
    (run : literals.literal v = .ok e) : e.Renders (literalTree v) := by
  unfold literals.literal at run
  split at run
  · rename_i written
    cases run
    obtain ⟨text, written⟩ := Option.isSome_iff_exists.mp written
    exact .literal tame.readable written
  · cases run

omit children in
theorem literals_render {v : Value} (tame : v.TameTexts) {es : List TypeExpr}
    (run : literals v = .ok es) : ∃ items, v.elements? = some items ∧
      List.Forall₂ Renders es (items.map literalTree) := by
  unfold literals at run
  split at run
  · cases run
  · rename_i items elements
    refine ⟨items, elements, List.forall₂_map_right_iff.mpr (List.forall₂_iff_zip.mpr ?_)⟩
    have each := (Attempt.mapM_eq_ok run).flip
    refine ⟨each.length_eq, fun pair => ?_⟩
    exact literal_renders (tame.element elements (List.of_mem_zip pair).2)
      (List.forall₂_zip each pair)

omit children in
theorem stringType_renders {format : Option Value} {e : TypeExpr}
    (run : stringType useDates format = .ok e) :
    e.Renders (.leaf (stringName useDates format)) := by
  have plain : (TypeExpr.primitive .string).Renders (.leaf "string") := .primitive .string
  unfold stringType at run
  split at run
  · cases run
    exact .primitive .blob
  · rename_i name noBinary
    have other : name ≠ "binary" := fun same => noBinary (same ▸ rfl)
    rw [stringName, if_neg other]
    split at run
    · rename_i date
      cases run
      rw [if_pos date]
      exact .primitive .date
    · rename_i noDate
      cases run
      rw [if_neg noDate]
      exact plain
  · rename_i a _ noText
    cases run
    cases a with
    | str name => exact absurd rfl (noText name)
    | _ => exact plain
  · rename_i v _ _ noAtom
    split at run
    · cases run
    · cases run
      cases v with
      | atom a => exact absurd rfl (noAtom a)
      | _ => exact plain
  · cases run
    exact plain

omit children in
/-- The names that a schema lists as required. -/
theorem contains_requiredNames {required : List String}
    (run : requiredNames (Entries.get? "required" entries) = .ok required) (name : String) :
    required.contains name = requires entries name := by
  unfold requires
  cases found : Entries.get? "required" entries with
  | none =>
      rw [found] at run
      cases run
      rfl
  | some v =>
      rw [found] at run
      unfold requiredNames at run
      dsimp only at run
      split at run
      · cases run
      · rename_i items elements
        split at run
        · cases run
          rw [Option.bind_some, elements]
          dsimp only
          rw [List.contains_eq_any_beq, List.any_filterMap]
          refine congrArg (List.any items) (funext fun item => ?_)
          match item with
          | .atom (.str required) => exact Bool.beq_comm
          | .atom .null | .atom (.bool _) | .atom (.int _) | .atom (.float _) | .atom (.date _)
          | .atom (.moment _) | .list _ | .map _ => rfl
        · cases run

omit children in
theorem readProperties_conveys (required : List String) {properties : Entries}
    (each : ∀ entry ∈ properties, ∀ e, read useDates false entry.2 = .ok e →
      Conveys useDates false entry.2 e)
    (tame : ∀ entry ∈ properties, ∀ name, entry.1 = .str name → Text.Tame name)
    {members : List (MemberKey × TypeExpr)}
    (run : readProperties useDates required properties = .ok members) :
    ∃ (fields : List (String × Value)) (ts : List TypeTree),
      Value.map properties = .object fields ∧
      List.Forall₂ (fun field t => Describes useDates false field.2 t) fields ts ∧
      List.Forall₂ RendersMember members ((fields.map fun field =>
        .property (Naming.propertyKey field.1) (!required.contains field.1)).zip ts) := by
  induction properties generalizing members with
  | nil =>
      cases run
      exact ⟨[], [], rfl, .nil, .nil⟩
  | cons entry rest ih =>
      obtain ⟨k, v⟩ := entry
      cases k with
      | str name =>
          rw [readProperties] at run
          obtain ⟨e, first, run⟩ := Attempt.bind_eq_ok run
          obtain ⟨others, later, run⟩ := Attempt.bind_eq_ok run
          cases run
          obtain ⟨t, describes, renders⟩ := each _ List.mem_cons_self e first
          obtain ⟨fields, ts, same, describesAll, rendersAll⟩ :=
            ih (fun entry member => each entry (List.mem_cons_of_mem _ member))
              (fun entry member => tame entry (List.mem_cons_of_mem _ member)) later
          have named : Text.Tame name := tame _ List.mem_cons_self name rfl
          refine ⟨(name, v) :: fields, t :: ts, ?_, .cons describes describesAll,
            .cons ⟨rfl, ?_, renders⟩ rendersAll⟩
          · rw [Value.object] at same ⊢
            rw [Value.map.inj same, List.map_cons]
          · rintro _ _ ⟨⟩
            exact ⟨named.balanced, named.raw⟩
      | _ => cases run

/-- The members for the declared properties. -/
theorem declaredMembers_conveys (tame : TameKeys entries)
    {members : List (MemberKey × TypeExpr)}
    (run : declaredMembers entries (fun required => readPropertiesAt useDates required entries) =
      .ok members) :
    ∃ ns, Properties useDates entries ns ∧ List.Forall₂ RendersMember members ns := by
  unfold declaredMembers at run
  split at run
  · rename_i given
    obtain ⟨required, listed, run⟩ := Attempt.bind_eq_ok run
    rw [readPropertiesAt_eq] at run
    cases found : Entries.get? "properties" entries with
    | none =>
        unfold Entries.given at given
        rw [found] at given
        cases given
    | some v =>
        rw [found] at run
        cases v with
        | map properties =>
            replace run : readProperties useDates required properties = .ok members := run
            obtain ⟨fields, ts, same, describes, renders⟩ :=
              readProperties_conveys required
                (fun entry member e => children _ (.property found member) e)
                (tame properties found) run
            have keys : fields.map (fun field => TreeKey.property (Naming.propertyKey field.1)
                (!required.contains field.1)) =
                  fields.map fun field => propertyKey entries field.1 :=
              List.map_congr_left fun field _ => by
                rw [propertyKey, contains_requiredNames listed]
            rw [keys] at renders
            exact ⟨_, .some given (same ▸ found) describes.length_eq
              (fun field t pair => List.forall₂_zip describes pair), renders⟩
        | _ => cases run
  · rename_i absent
    cases run
    exact ⟨[], .none (Bool.eq_false_iff.mpr absent), .nil⟩

/-- The member for all other properties. -/
theorem otherMembers_conveys {members : List (MemberKey × TypeExpr)}
    (run : otherMembers entries (readAt useDates "additionalProperties" entries) = .ok members) :
    ∃ ns, Others useDates entries ns ∧ List.Forall₂ RendersMember members ns := by
  have index {e : TypeExpr} {t : TypeTree} (renders : e.Renders t) :
      List.Forall₂ RendersMember [(.index, e)] [(.index "key" "string", t)] :=
    .cons ⟨rfl, fun name optional same => (by cases same), renders⟩ .nil
  unfold otherMembers at run
  split at run
  · rename_i entry rest found
    obtain ⟨e, read, rfl⟩ := Attempt.map_eq_ok run
    obtain ⟨absent, -⟩ | ⟨v, there, t, describes, renders⟩ :=
      readAt_conveys children (by decide) read
    · rw [found] at absent
      cases absent
    · have additional : additional? entries = some v := by
        rw [additional?, found, ← there, found]
      exact ⟨_, .typed additional describes, index renders⟩
  · rename_i found
    cases run
    have additional : additional? entries = none := by rw [additional?, found]
    exact ⟨_, .none additional (Or.inl found), .nil⟩
  · rename_i noSchema noFalse
    cases run
    have additional : additional? entries = none := by
      unfold additional?
      split
      · rename_i entry rest found
        exact absurd found (noSchema entry rest)
      · rfl
    split
    · rename_i given
      exact ⟨_, .none additional (Or.inr given), .nil⟩
    · rename_i absent
      exact ⟨_, .any additional noFalse (Bool.eq_false_iff.mpr absent), index .unknown⟩

theorem objectType_conveys (tame : TameKeys entries) {e : TypeExpr}
    (run : objectType entries (fun required => readPropertiesAt useDates required entries)
      (readAt useDates "additionalProperties" entries) = .ok e) :
    ∃ properties others, Properties useDates entries properties ∧ Others useDates entries others ∧
      e.Renders (.object (properties ++ others)) := by
  rw [objectType_eq] at run
  obtain ⟨declared, first, run⟩ := Attempt.bind_eq_ok run
  obtain ⟨further, second, run⟩ := Attempt.bind_eq_ok run
  cases run
  obtain ⟨properties, describes, renders⟩ := declaredMembers_conveys children tame first
  obtain ⟨others, describesOthers, rendersOthers⟩ := otherMembers_conveys children second
  exact ⟨properties, others, describes, describesOthers,
    .object (List.rel_append renders rendersOthers)⟩

theorem array_conveys {e : TypeExpr} (run : (readAt useDates "items" entries).map .array = .ok e) :
    ∃ t, Named useDates entries (.str "array") t ∧ e.Renders t := by
  obtain ⟨item, read, rfl⟩ := Attempt.map_eq_ok run
  obtain ⟨absent, rfl⟩ | ⟨v, found, t, describes, renders⟩ :=
    readAt_conveys children (by decide) read
  · exact ⟨_, .arrayOfAny absent, .array .unknown⟩
  · exact ⟨_, .array found describes, .array renders⟩

/-- The type of a type name. -/
theorem typeNamed_conveys (tame : TameKeys entries)
    {name : Value} {e : TypeExpr}
    (run : typeNamed useDates entries ((readAt useDates "items" entries).map .array)
      (objectType entries (fun required => readPropertiesAt useDates required entries)
        (readAt useDates "additionalProperties" entries)) name = .ok e) :
    ∃ t, Named useDates entries name t ∧ e.Renders t := by
  generalize result : (Except.ok e : Attempt TypeExpr) = x at run
  cases readUnder_of_typeNamed run with
  | string => exact ⟨_, .string, stringType_renders result.symm⟩
  | primitive scalar =>
      cases result
      simp only [primitiveNames, List.mem_cons, Prod.mk.injEq, List.not_mem_nil, or_false] at scalar
      obtain ⟨rfl, rfl⟩ | ⟨rfl, rfl⟩ | ⟨rfl, rfl⟩ | ⟨rfl, rfl⟩ := scalar
      · exact ⟨_, .integer, .primitive .number⟩
      · exact ⟨_, .number, .primitive .number⟩
      · exact ⟨_, .boolean, .primitive .boolean⟩
      · exact ⟨_, .null, .primitive .null⟩
  | array => exact array_conveys children result.symm
  | object isObject =>
      obtain ⟨properties, others, first, second, renders⟩ :=
        objectType_conveys children tame result.symm
      exact ⟨_, .object isObject first second, renders⟩
  | unknown meansNothing absent =>
      cases result
      exact ⟨_, .other meansNothing absent, .unknown⟩
  | compound => cases result

omit children in
theorem reference_conveys (rule : ruleFor inlineNamed entries = .reference)
    (legible : Legible inlineNamed (.map entries)) {e : TypeExpr}
    (run : ofReference ((Entries.get? "$ref" entries).getD .null) = .ok e) :
    Conveys useDates inlineNamed (.map entries) (withNull entries e) := by
  have has : Entries.has "$ref" entries = true := ruleFor_applies rule
  obtain ⟨v, refers⟩ := Option.isSome_iff_exists.mp has
  rw [refers, Option.getD_some] at run
  unfold ofReference at run
  split at run
  · rename_i reference
    split at run
    · rename_i schema
      cases run
      obtain ⟨name, rfl⟩ := (isSchemaReference_iff reference).mp schema
      rw [drop_schemaReference]
      have letters := legible.names name (.reference refers)
      exact ⟨_, .reference rule refers, renders_withNull (.named letters)⟩
    · cases run
  · cases run

omit children in
theorem name_conveys (rule : ruleFor inlineNamed entries = .name)
    (legible : Legible inlineNamed (.map entries)) :
    Conveys useDates inlineNamed (.map entries)
      (withNull entries (.named ((nameOf? entries).getD ""))) := by
  obtain ⟨own, known⟩ : inlineNamed = false ∧ (nameOf? entries).isSome = true :=
    ruleFor_applies rule
  subst own
  obtain ⟨name, known⟩ := Option.isSome_iff_exists.mp known
  rw [known, Option.getD_some]
  exact ⟨_, .name rule known, renders_withNull (.named (legible.names name (.name known)))⟩

theorem joined_conveys {key : String} {c : Connective} {f : List TypeExpr → TypeExpr}
    (joins : (ruleFor inlineNamed entries).joins? = some (key, c))
    (given : Entries.given key entries = true)
    (writes : ∀ es ts, List.Forall₂ Renders es ts → (f es).Renders (.ofMembers c ts))
    {e : TypeExpr} (run : (readMembersAt useDates key entries).map f = .ok e) :
    Conveys useDates inlineNamed (.map entries) (withNull entries e) := by
  obtain ⟨es, members, rfl⟩ := Attempt.map_eq_ok run
  obtain ⟨v, items, found, elements, each⟩ :=
    readMembersAt_conveys children joins given members
  obtain ⟨ts, length, describes, renders⟩ := exists_trees each
  exact ⟨_, .joined joins found elements length describes, renders_withNull (writes es ts renders)⟩

omit children in
theorem enum_conveys (rule : ruleFor inlineNamed entries = .enum)
    (legible : Legible inlineNamed (.map entries)) {e : TypeExpr}
    (run : (literals ((Entries.get? "enum" entries).getD .null)).map .choice = .ok e) :
    Conveys useDates inlineNamed (.map entries) (withNull entries e) := by
  obtain ⟨es, members, rfl⟩ := Attempt.map_eq_ok run
  obtain ⟨v, found⟩ := exists_of_given (ruleFor_applies rule)
  rw [found, Option.getD_some] at members
  have tame := legible.literals entries .self "enum" (by decide) v found
  obtain ⟨items, elements, renders⟩ := literals_render tame members
  exact ⟨_, .enum rule found elements, renders_withNull (.choice renders)⟩

omit children in
theorem const_conveys (rule : ruleFor inlineNamed entries = .const)
    (legible : Legible inlineNamed (.map entries)) {e : TypeExpr}
    (run : literals.literal ((Entries.get? "const" entries).getD .null) = .ok e) :
    Conveys useDates inlineNamed (.map entries) (withNull entries e) := by
  have has : Entries.has "const" entries = true := ruleFor_applies rule
  obtain ⟨v, found⟩ := Option.isSome_iff_exists.mp has
  rw [found, Option.getD_some] at run
  have tame := legible.literals entries .self "const" (by decide) v found
  exact ⟨_, .const rule found, renders_withNull (literal_renders tame run)⟩

theorem type_conveys (rule : ruleFor inlineNamed entries = .type)
    (legible : Legible inlineNamed (.map entries)) {e : TypeExpr}
    (run : readBy useDates entries .type = .ok e) :
    Conveys useDates inlineNamed (.map entries) (withNull entries e) := by
  have tame := legible.properties entries .self
  rw [readBy] at run
  split at run
  · rename_i names found
    obtain ⟨es, types, rfl⟩ := Attempt.map_eq_ok run
    have each := (Attempt.mapM_eq_ok types).imp fun name e read =>
      typeNamed_conveys children tame read
    obtain ⟨ts, length, named, renders⟩ := exists_trees each
    exact ⟨_, .types rule found length named, renders_withNull (.choice renders)⟩
  · rename_i noList
    obtain ⟨t, named, renders⟩ := typeNamed_conveys children tame run
    exact ⟨_, .type rule noList named, renders_withNull renders⟩

/-- **The type of a schema is put together from the types of the schemas inside it.** -/
theorem read_map_conveys (filled : entries ≠ []) (legible : Legible inlineNamed (.map entries))
    {e : TypeExpr} (run : read useDates inlineNamed (.map entries) = .ok e) :
    Conveys useDates inlineNamed (.map entries) e := by
  rw [read_map_eq useDates inlineNamed filled] at run
  obtain ⟨base, read, rfl⟩ := Attempt.map_eq_ok run
  clear run
  cases rule : ruleFor inlineNamed entries <;> rw [rule] at read
  case reference => exact reference_conveys rule legible read
  case name =>
    cases read
    exact name_conveys rule legible
  case oneOf =>
    have joins : (ruleFor inlineNamed entries).joins? = some ("oneOf", .union) := rule ▸ rfl
    exact joined_conveys children joins (ruleFor_applies rule) (fun _ _ => .union) read
  case anyOf =>
    have joins : (ruleFor inlineNamed entries).joins? = some ("anyOf", .union) := rule ▸ rfl
    exact joined_conveys children joins (ruleFor_applies rule) (fun _ _ => .union) read
  case allOf =>
    have joins : (ruleFor inlineNamed entries).joins? = some ("allOf", .intersection) := rule ▸ rfl
    exact joined_conveys children joins (ruleFor_applies rule) (fun _ _ => .intersection) read
  case enum => exact enum_conveys rule legible read
  case const => exact const_conveys rule legible read
  case type => exact type_conveys children rule legible read

end Parts

/-! ## Whole schemas -/

theorem describes_empty (useDates inlineNamed : Bool) :
    Describes useDates inlineNamed (.map []) .unknown := by
  have rule : ruleFor inlineNamed [] = .type := by
    cases inlineNamed <;> rfl
  have other : ∀ known ∈ typeNames, Value.null ≠ .str known := fun _ _ same => by cases same
  exact .type rule (fun names found => by cases found) (.other other rfl)

/-- Every legible schema that is read stands for a type, and it is the one that is written. -/
theorem read_conveys (useDates : Bool) (v : Value) {inlineNamed : Bool}
    (legible : Legible inlineNamed v) {e : TypeExpr} (run : read useDates inlineNamed v = .ok e) :
    Conveys useDates inlineNamed v e := by
  induction v using children_induction generalizing inlineNamed e with
  | atom a =>
      cases run
      exact ⟨_, .atom, .unknown⟩
  | list items =>
      cases run
      exact ⟨_, .list, .unknown⟩
  | map entries ih =>
      by_cases empty : entries = []
      · subst empty
        cases run
        exact ⟨_, describes_empty useDates inlineNamed, .unknown⟩
      · refine read_map_conveys (fun v child e run => ?_) empty legible run
        exact ih v child (legible.child child) run

/-- An array of what is a base and a word besides, or null. -/
def arrayOfChoices : Value :=
  .map [(.str "type", .str "array"),
    (.str "items", .map [(.str "nullable", .bool true),
      (.str "allOf", .list [.map [(.str "$ref", .str (schemaReference "base"))],
        .map [(.str "oneOf", .list [.map [(.str "type", .str "string")],
          .map [(.str "enum", .list [.str "a | b"])]])]])])]

theorem legible_arrayOfChoices : Legible false arrayOfChoices := by
  have string : Legible false (.map [(.str "type", .str "string")]) := by
    apply Legible.map <;> simp [TameKeys, Entries.get?, nameOf?, schemaNameKey]
  have word : Legible false (.map [(.str "enum", .list [.str "a | b"])]) := by
    have tame : (Value.list [.str "a | b"]).TameTexts :=
      Value.tameTexts_list fun item member => by
        rw [List.mem_singleton.mp member]
        exact Value.tameTexts_atom fun s same => by
          cases same
          decide
    apply Legible.map <;> simp [TameKeys, Entries.get?, nameOf?, schemaNameKey, tame]
  have base : Legible false (.map [(.str "$ref", .str (schemaReference "base"))]) := by
    apply Legible.map
    case reference =>
      intro name refers
      have same : schemaReference "base" = schemaReference name :=
        Scalar.str.inj (Value.atom.inj (Option.some.inj refers))
      rw [← schemaReference_injective same]
      decide
    all_goals simp [TameKeys, Entries.get?, nameOf?, schemaNameKey]
  apply Legible.map <;> simp [TameKeys, Entries.get?, nameOf?, schemaNameKey]
  apply Legible.map <;> simp [TameKeys, Entries.get?, nameOf?, schemaNameKey, Value.elements?, base]
  apply Legible.map <;>
    simp [TameKeys, Entries.get?, nameOf?, schemaNameKey, Value.elements?, string, word]

/-- **The text of a type, read back, is the one type that its schema stands for.** -/
theorem resolve_describes {useDates inlineNamed : Bool} {schema : Value}
    (legible : Legible inlineNamed schema) {type : ResolvedType}
    (run : resolve useDates schema inlineNamed = .ok type) :
    ∃ t tree, TypeText.read? type.text = some t ∧ Describes useDates inlineNamed schema tree ∧
      (∀ other, Describes useDates inlineNamed schema other → other = tree) ∧ Same t tree := by
  obtain ⟨e, read, rfl⟩ := Attempt.map_eq_ok run
  obtain ⟨tree, describes, renders⟩ := read_conveys useDates schema legible read
  obtain ⟨t, text, same⟩ := renders.shown.read?_eq_some
  exact ⟨t, tree, text, describes, fun other again => again.unique describes, same⟩

/-- Parentheses stand around the alternatives in an intersection, and around the items. -/
theorem resolve_describes_arrayOfChoices :
    Legible false arrayOfChoices ∧
      resolve false arrayOfChoices false =
        .ok ⟨"(Base & (string | 'a | b') | null)[]", [.model "Base"]⟩ ∧
      ∃ t tree, TypeText.read? "(Base & (string | 'a | b') | null)[]" = some t ∧
        Describes false false arrayOfChoices tree ∧
          (∀ other, Describes false false arrayOfChoices other → other = tree) ∧ Same t tree :=
  have run : resolve false arrayOfChoices false =
      .ok ⟨"(Base & (string | 'a | b') | null)[]", [.model "Base"]⟩ := by decide
  ⟨legible_arrayOfChoices, run, resolve_describes legible_arrayOfChoices run⟩

/-- A bracket in a literal hides where its alternative ends, also in a key. -/
example : resolve false (.map [(.str "type", .str "array"), (.str "items", .map [(.str "enum",
    .list [.map [(.str "(", .atom (.int 1))], .atom (.int 2)])])]) false =
      .ok ⟨"\x7b\"(\": 1\x7d | 2[]", []⟩ := by decide

/-- Null is not added to a type of which nothing is known, and that makes a difference. -/
theorem resolve_nullable_unknown :
    Legible false (.map [(.str "nullable", .bool true)]) ∧
      Named false [(.str "nullable", .bool true)] .null .unknown ∧
      resolve false (.map [(.str "nullable", .bool true)]) false = .ok ⟨"unknown", []⟩ ∧
      ∃ t, TypeText.read? "unknown" = some t ∧ ¬ Same t (.joined .union [.unknown, .null]) := by
  refine ⟨?_, .other (fun known _ same => by cases same) rfl, by decide, ?_⟩
  · apply Legible.map <;> simp [TameKeys, Entries.get?, nameOf?, schemaNameKey]
  · obtain ⟨t, read, same⟩ := TypeText.Shows.unknown.read?_eq_some
    refine ⟨t, read, fun added => ?_⟩
    have known := (same.symm.trans added).isUnknown_eq
    cases known

end Schema

end ClientForge
