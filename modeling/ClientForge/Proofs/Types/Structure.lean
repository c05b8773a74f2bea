/-
# ClientForge.Proofs.Types.Structure -- the type that a schema stands for

What type a schema stands for is said here without writing it: `Describes useDates inlineNamed v t`
relates schemas to type trees.  One rule decides what a schema is (`ruleFor`); the types of the
schemas inside it are whole parts of its own type.  Null is added to the whole type of a schema
that is nullable, unless nothing is known about that type (`TypeTree.orNull`).  A schema stands
for one type only (`Describes.unique`).  Reading a schema follows the same rules: one of them
gives the whole type (`read_map_eq`), and a type name leads to one of a few ends (`ReadUnder`).

`Legible` is what the texts in a schema have to keep to, so that no text is taken for a part of
a type: its literals, the names of its properties, and the names of the schemas that it refers
to.  Only the schemas are looked at that stand where a schema may stand (`Child`); an example or
a default may hold anything.
-/
import ClientForge.Proofs.Reference.SchemaName
import ClientForge.Proofs.Types.Literals
import ClientForge.Types.Schema

namespace ClientForge.Schema

set_option autoImplicit false

/-! ## Rules -/

/-- What decides about the type of a schema. -/
inductive Rule where
  | reference
  | name
  | oneOf
  | anyOf
  | allOf
  | enum
  | const
  | type
  deriving DecidableEq

/-- The first rule that applies; with `inlineNamed` the schema's own name does not. -/
def ruleFor (inlineNamed : Bool) (entries : Entries) : Rule :=
  if Entries.has "$ref" entries then .reference
  else if !inlineNamed && (nameOf? entries).isSome then .name
  else if Entries.given "oneOf" entries then .oneOf
  else if Entries.given "anyOf" entries then .anyOf
  else if Entries.given "allOf" entries then .allOf
  else if Entries.given "enum" entries then .enum
  else if Entries.has "const" entries then .const
  else .type

/-- The key of the list of schemas that a rule joins, and how it joins them. -/
def Rule.joins? : Rule → Option (String × Connective)
  | .oneOf => some ("oneOf", .union)
  | .anyOf => some ("anyOf", .union)
  | .allOf => some ("allOf", .intersection)
  | _ => none

/-- The type of strings of a format. -/
def stringName (useDates : Bool) : Option Value → String
  | some (.atom (.str format)) =>
    if format = "binary" then "Blob"
    else if useDates ∧ (format = "date" ∨ format = "date-time") then "Date"
    else "string"
  | _ => "string"

/-- The names of types that mean something. -/
def typeNames : List String := ["string", "integer", "number", "boolean", "null", "array", "object"]

/-- The names of types without parts, strings aside. -/
def primitiveNames : List (String × Primitive) :=
  [("integer", .number), ("number", .number), ("boolean", .boolean), ("null", .null)]

/-- A schema lists a property as required. -/
def requires (entries : Entries) (name : String) : Bool :=
  match (Entries.get? "required" entries).bind Value.elements? with
  | some items => items.any fun
    | .atom (.str required) => required == name
    | _ => false
  | none => false

/-- The key of a property in its object type. -/
def propertyKey (entries : Entries) (name : String) : TreeKey :=
  .property (Naming.propertyKey name) (!requires entries name)

/-- The schema of all properties that are not declared, if it says anything. -/
def additional? (entries : Entries) : Option Value :=
  match Entries.get? "additionalProperties" entries with
  | some (.map (entry :: rest)) => some (.map (entry :: rest))
  | _ => none

/-- A type whose schema may say that it is nullable. -/
def nulled (entries : Entries) (t : TypeTree) : TypeTree :=
  if Entries.given "nullable" entries then t.orNull else t

/-! ## Types -/

mutual

/-- The type that a schema stands for. -/
inductive Describes (useDates : Bool) : Bool → Value → TypeTree → Prop
  | atom {inlineNamed : Bool} {a : Scalar} : Describes useDates inlineNamed (.atom a) .unknown
  | list {inlineNamed : Bool} {items : List Value} :
      Describes useDates inlineNamed (.list items) .unknown
  /-- A reference that was left in place, by the name of its schema. -/
  | reference {inlineNamed : Bool} {entries : Entries} {name : String} :
      ruleFor inlineNamed entries = .reference →
      Entries.get? "$ref" entries = some (.str (schemaReference name)) →
      Describes useDates inlineNamed (.map entries) (nulled entries (.leaf (Naming.pascal name)))
  | name {inlineNamed : Bool} {entries : Entries} {name : String} :
      ruleFor inlineNamed entries = .name → nameOf? entries = some name →
      Describes useDates inlineNamed (.map entries) (nulled entries (.leaf (Naming.pascal name)))
  /-- A union or an intersection of whole types. -/
  | joined {inlineNamed : Bool} {entries : Entries} {key : String} {c : Connective}
      {v : Value} {items : List Value} {ts : List TypeTree} :
      (ruleFor inlineNamed entries).joins? = some (key, c) →
      Entries.get? key entries = some v → v.elements? = some items → items.length = ts.length →
      (∀ item t, (item, t) ∈ items.zip ts → Describes useDates false item t) →
      Describes useDates inlineNamed (.map entries) (nulled entries (.ofMembers c ts))
  /-- A union of literals. -/
  | enum {inlineNamed : Bool} {entries : Entries} {v : Value} {items : List Value} :
      ruleFor inlineNamed entries = .enum → Entries.get? "enum" entries = some v →
      v.elements? = some items →
      Describes useDates inlineNamed (.map entries)
        (nulled entries (.ofMembers .union (items.map literalTree)))
  | const {inlineNamed : Bool} {entries : Entries} {v : Value} :
      ruleFor inlineNamed entries = .const → Entries.get? "const" entries = some v →
      Describes useDates inlineNamed (.map entries) (nulled entries (literalTree v))
  | type {inlineNamed : Bool} {entries : Entries} {t : TypeTree} :
      ruleFor inlineNamed entries = .type →
      (∀ names, Entries.get? "type" entries ≠ some (.list names)) →
      Named useDates entries ((Entries.get? "type" entries).getD .null) t →
      Describes useDates inlineNamed (.map entries) (nulled entries t)
  /-- A union of the types of a list of type names. -/
  | types {inlineNamed : Bool} {entries : Entries} {names : List Value} {ts : List TypeTree} :
      ruleFor inlineNamed entries = .type → Entries.get? "type" entries = some (.list names) →
      names.length = ts.length →
      (∀ name t, (name, t) ∈ names.zip ts → Named useDates entries name t) →
      Describes useDates inlineNamed (.map entries) (nulled entries (.ofMembers .union ts))

/-- The type that a type name stands for in a schema. -/
inductive Named (useDates : Bool) : Entries → Value → TypeTree → Prop
  | string {entries : Entries} :
      Named useDates entries (.str "string")
        (.leaf (stringName useDates (Entries.get? "format" entries)))
  | integer {entries : Entries} : Named useDates entries (.str "integer") (.leaf "number")
  | number {entries : Entries} : Named useDates entries (.str "number") (.leaf "number")
  | boolean {entries : Entries} : Named useDates entries (.str "boolean") (.leaf "boolean")
  | null {entries : Entries} : Named useDates entries (.str "null") .null
  | array {entries : Entries} {v : Value} {t : TypeTree} : Entries.get? "items" entries = some v →
      Describes useDates false v t → Named useDates entries (.str "array") (.array t)
  | arrayOfAny {entries : Entries} : Entries.get? "items" entries = none →
      Named useDates entries (.str "array") (.array .unknown)
  | object {entries : Entries} {name : Value} {properties others : List (TreeKey × TypeTree)} :
      name = .str "object" ∨
        ((∀ known ∈ typeNames, name ≠ .str known) ∧ Entries.has "properties" entries = true) →
      Properties useDates entries properties → Others useDates entries others →
      Named useDates entries name (.object (properties ++ others))
  | other {entries : Entries} {name : Value} : (∀ known ∈ typeNames, name ≠ .str known) →
      Entries.has "properties" entries = false → Named useDates entries name .unknown

/-- The members of an object type for the properties that its schema declares. -/
inductive Properties (useDates : Bool) : Entries → List (TreeKey × TypeTree) → Prop
  | none {entries : Entries} : Entries.given "properties" entries = false →
      Properties useDates entries []
  | some {entries : Entries} {fields : List (String × Value)} {ts : List TypeTree} :
      Entries.given "properties" entries = true →
      Entries.get? "properties" entries = .some (.object fields) → fields.length = ts.length →
      (∀ field t, (field, t) ∈ fields.zip ts → Describes useDates false field.2 t) →
      Properties useDates entries ((fields.map fun field => propertyKey entries field.1).zip ts)

/-- The member of an object type for all other properties. -/
inductive Others (useDates : Bool) : Entries → List (TreeKey × TypeTree) → Prop
  | typed {entries : Entries} {v : Value} {t : TypeTree} : additional? entries = some v →
      Describes useDates false v t → Others useDates entries [(.index "key" "string", t)]
  | any {entries : Entries} : additional? entries = none →
      Entries.get? "additionalProperties" entries ≠ some (.bool false) →
      Entries.given "properties" entries = false →
      Others useDates entries [(.index "key" "string", .unknown)]
  | none {entries : Entries} : additional? entries = none →
      Entries.get? "additionalProperties" entries = some (.bool false) ∨
        Entries.given "properties" entries = true →
      Others useDates entries []

end

/-! ## Type names -/

/-- What is read under a type name, given what is read as an array and as an object. -/
inductive ReadUnder (useDates : Bool) (entries : Entries) (array object : Attempt TypeExpr) :
    Value → Attempt TypeExpr → Prop
  | string : ReadUnder useDates entries array object (.str "string")
      (stringType useDates (Entries.get? "format" entries))
  | primitive {known : String} {p : Primitive} : (known, p) ∈ primitiveNames →
      ReadUnder useDates entries array object (.str known) (.ok (.primitive p))
  | array : ReadUnder useDates entries array object (.str "array") array
  /-- A name that means nothing is that of an object if there are properties. -/
  | object {name : Value} :
      name = .str "object" ∨
        ((∀ known ∈ typeNames, name ≠ .str known) ∧ Entries.has "properties" entries = true) →
      ReadUnder useDates entries array object name object
  | unknown {name : Value} : (∀ known ∈ typeNames, name ≠ .str known) →
      Entries.has "properties" entries = false →
      ReadUnder useDates entries array object name (.ok .unknown)
  | compound {name : Value} : (∀ a, name ≠ .atom a) →
      ReadUnder useDates entries array object name illShaped

/-- All that reading under a type name can come to. -/
theorem readUnder_of_typeNamed {useDates : Bool} {entries : Entries}
    {array object x : Attempt TypeExpr} {name : Value}
    (run : typeNamed useDates entries array object name = x) :
    ReadUnder useDates entries array object name x := by
  subst run
  have other (unknown : ∀ known ∈ typeNames, name ≠ .str known) :
      ReadUnder useDates entries array object name
        (if Entries.has "properties" entries then object else .ok .unknown) := by
    split
    · rename_i has
      exact .object (Or.inr ⟨unknown, has⟩)
    · rename_i absent
      exact .unknown unknown (Bool.eq_false_iff.mpr absent)
  unfold typeNamed
  dsimp only
  split
  · rename_i known
    split
    · subst known
      exact .string
    split
    · rename_i isNumber
      rcases isNumber with rfl | rfl <;> exact .primitive (by decide)
    split
    · subst known
      exact .primitive (by decide)
    split
    · subst known
      exact .primitive (by decide)
    split
    · subst known
      exact .array
    split
    · subst known
      exact .object (Or.inl rfl)
    · exact other (by simp_all [typeNames])
  · rename_i a noText
    exact other fun known _ same => noText known (Value.atom.inj same)
  · rename_i noAtom
    refine .compound fun a same => ?_
    subst same
    exact absurd rfl (noAtom a)

/-! ## One rule at a time -/

/-- The type of a schema by one rule, before null is added. -/
def readBy (useDates : Bool) (entries : Entries) : Rule → Attempt TypeExpr
  | .reference => ofReference ((Entries.get? "$ref" entries).getD .null)
  | .name => .ok (.named ((nameOf? entries).getD ""))
  | .oneOf => (readMembersAt useDates "oneOf" entries).map .union
  | .anyOf => (readMembersAt useDates "anyOf" entries).map .union
  | .allOf => (readMembersAt useDates "allOf" entries).map .intersection
  | .enum => (literals ((Entries.get? "enum" entries).getD .null)).map .choice
  | .const => literals.literal ((Entries.get? "const" entries).getD .null)
  | .type =>
    let array := (readAt useDates "items" entries).map .array
    let object := objectType entries (fun required => readPropertiesAt useDates required entries)
      (readAt useDates "additionalProperties" entries)
    match Entries.get? "type" entries with
    | some (.list types) => (types.mapM (typeNamed useDates entries array object)).map .choice
    | type => typeNamed useDates entries array object (type.getD .null)

theorem map_comp {α : Type} (x : Attempt α) (f : α → TypeExpr) (g : TypeExpr → TypeExpr) :
    (x.map fun a => g (f a)) = (x.map f).map g := by
  cases x <;> rfl

/-- A schema is read by the rule that decides about it. -/
theorem read_map_eq (useDates inlineNamed : Bool) {entries : Entries} (filled : entries ≠ []) :
    read useDates inlineNamed (.map entries) =
      (readBy useDates entries (ruleFor inlineNamed entries)).map (withNull entries) := by
  unfold read ruleFor
  rw [if_neg (by simpa using filled)]
  unfold Entries.has
  cases refers : Entries.get? "$ref" entries with
  | some reference => simp [readBy, refers]
  | none =>
      have noReference : ¬ (none : Option Value).isSome = true := by decide
      rw [if_neg noReference]
      dsimp only
      cases known : (if inlineNamed = true then none else nameOf? entries) with
      | some name =>
          split at known
          · cases known
          · rename_i own
            have named : (!inlineNamed && (nameOf? entries).isSome) = true := by simp [own, known]
            rw [if_pos named, readBy, known]
            rfl
      | none =>
          have unnamed : ¬ (!inlineNamed && (nameOf? entries).isSome) = true := by
            split at known
            · simp [*]
            · simp [known]
          rw [if_neg unnamed]
          by_cases oneOf : Entries.given "oneOf" entries = true
          · rw [if_pos oneOf, if_pos oneOf, readBy, map_comp]
          rw [if_neg oneOf, if_neg oneOf]
          by_cases anyOf : Entries.given "anyOf" entries = true
          · rw [if_pos anyOf, if_pos anyOf, readBy, map_comp]
          rw [if_neg anyOf, if_neg anyOf]
          by_cases allOf : Entries.given "allOf" entries = true
          · rw [if_pos allOf, if_pos allOf, readBy, map_comp]
          rw [if_neg allOf, if_neg allOf]
          by_cases enum : Entries.given "enum" entries = true
          · rw [if_pos enum, if_pos enum, readBy, map_comp]
          rw [if_neg enum, if_neg enum]
          cases constant : Entries.get? "const" entries with
          | some v => simp [readBy, constant]
          | none =>
              have noConstant : ¬ (none : Option Value).isSome = true := by decide
              rw [if_neg noConstant, readBy]
              dsimp only
              cases Entries.get? "type" entries with
              | none => rfl
              | some type =>
                  cases type with
                  | list types => exact map_comp _ _ _
                  | atom a => rfl
                  | map fields => rfl

theorem exists_of_given {key : String} {entries : Entries}
    (given : Entries.given key entries = true) : ∃ v, Entries.get? key entries = some v := by
  unfold Entries.given at given
  cases found : Entries.get? key entries with
  | none =>
      rw [found] at given
      cases given
  | some v => exact ⟨v, rfl⟩

/-- A rule applies to a schema. -/
def Rule.Applies (inlineNamed : Bool) (entries : Entries) : Rule → Prop
  | .reference => Entries.has "$ref" entries = true
  | .name => inlineNamed = false ∧ (nameOf? entries).isSome = true
  | .oneOf => Entries.given "oneOf" entries = true
  | .anyOf => Entries.given "anyOf" entries = true
  | .allOf => Entries.given "allOf" entries = true
  | .enum => Entries.given "enum" entries = true
  | .const => Entries.has "const" entries = true
  | .type => True

theorem ruleFor_applies {inlineNamed : Bool} {entries : Entries} {rule : Rule}
    (decides : ruleFor inlineNamed entries = rule) : rule.Applies inlineNamed entries := by
  subst decides
  unfold ruleFor
  repeat' split
  all_goals first
    | trivial
    | assumption
    | simpa [Rule.Applies] using ‹(!inlineNamed && (nameOf? entries).isSome) = true›

/-! ## Schemas inside a schema -/

/-- A schema that stands in a schema, where it is read as one. -/
inductive Child (entries : Entries) : Value → Prop
  | under {key : String} {v : Value} : key ∈ ["items", "additionalProperties"] →
      Entries.get? key entries = some v → Child entries v
  | item {rule : Rule} {key : String} {c : Connective} {v : Value} {items : List Value}
      {item : Value} : rule.joins? = some (key, c) → Entries.get? key entries = some v →
      v.elements? = some items → item ∈ items → Child entries item
  | property {properties : Entries} {entry : Scalar × Value} :
      Entries.get? "properties" entries = some (.map properties) → entry ∈ properties →
      Child entries entry.2

/-- What is listed without a list has no parts. -/
theorem exists_atom {v : Value} (noList : ∀ items, v ≠ .list items) {items : List Value}
    (elements : v.elements? = some items) {item : Value} (inside : item ∈ items) :
    ∃ a, item = .atom a := by
  cases v with
  | list listed => exact absurd rfl (noList listed)
  | map entries =>
      cases elements
      obtain ⟨entry, -, rfl⟩ := List.mem_map.mp inside
      exact ⟨_, rfl⟩
  | atom a =>
      cases a with
      | str s =>
          cases elements
          obtain ⟨c, -, rfl⟩ := List.mem_map.mp inside
          exact ⟨_, rfl⟩
      | _ => cases elements

/-- The schemas that stand in a map, by the keys that they stand under. -/
theorem Child.forall {P : Value → Prop} {entries : Entries}
    (under : ∀ key ∈ ["items", "additionalProperties"], ∀ v,
      Entries.get? key entries = some v → P v)
    (item : ∀ key ∈ ["oneOf", "anyOf", "allOf"], ∀ v, Entries.get? key entries = some v →
      ∀ item ∈ v.elements?.getD [], P item)
    (property : ∀ properties, Entries.get? "properties" entries = some (.map properties) →
      ∀ entry ∈ properties, P entry.2) {v : Value} (child : Child entries v) : P v := by
  cases child with
  | under member found => exact under _ member _ found
  | @item rule key c w items item joins found elements member =>
      have among : key ∈ ["oneOf", "anyOf", "allOf"] := by
        cases rule <;> cases joins <;> decide
      exact item key among w found v (elements ▸ member)
  | property found member => exact property _ found _ member

/-- A schema that stands in a schema is a part of it, or a bare character of a string. -/
theorem Child.part {entries : Entries} {v : Value} (child : Child entries v) :
    (∃ a, v = .atom a) ∨ ∃ entry ∈ entries, v.PartOf entry.2 := by
  cases child with
  | under _ found => exact Or.inr ⟨_, Entries.mem_of_get? found, .refl⟩
  | @item rule key c w items item _ found elements member =>
      by_cases listed : ∃ items, w = .list items
      · obtain ⟨items, rfl⟩ := listed
        cases elements
        exact Or.inr ⟨_, Entries.mem_of_get? found, .item member .refl⟩
      · have noList : ∀ items, w ≠ .list items := fun items same => listed ⟨items, same⟩
        exact Or.inl (exists_atom noList elements member)
  | property found member => exact Or.inr ⟨_, Entries.mem_of_get? found, .entry member .refl⟩

/-- Induction over a schema, with the schemas that stand in it at hand. -/
@[elab_as_elim]
theorem children_induction {motive : Value → Prop} (atom : ∀ a, motive (.atom a))
    (list : ∀ items, motive (.list items))
    (map : ∀ entries, (∀ v, Child entries v → motive v) → motive (.map entries)) (v : Value) :
    motive v := by
  have parts : ∀ u, u.PartOf v → motive u := by
    induction v with
    | atom a =>
        intro u part
        cases part
        exact atom a
    | list items ih =>
        intro u part
        cases part with
        | refl => exact list items
        | item member part => exact ih _ member u part
    | map entries ih =>
        intro u part
        cases part with
        | refl =>
            refine map entries fun v child => ?_
            obtain ⟨a, rfl⟩ | ⟨entry, member, part⟩ := child.part
            · exact atom a
            · exact ih entry member v part
        | entry member part => exact ih _ member u part
  exact parts v .refl

/-! ## One type only -/

section Unique

variable {useDates : Bool} {entries : Entries}

/-- No schema that stands in the map stands for two types. -/
def UniqueChildren (useDates : Bool) (entries : Entries) : Prop :=
  ∀ v, Child entries v → ∀ t u, Describes useDates false v t → Describes useDates false v u → t = u

theorem eq_of_zip {α : Type} {R : α → TypeTree → Prop} {xs : List α} {ts us : List TypeTree}
    (length : xs.length = ts.length) (each : ∀ x t, (x, t) ∈ xs.zip ts → R x t)
    (length' : xs.length = us.length) (each' : ∀ x u, (x, u) ∈ xs.zip us → R x u)
    (unique : ∀ x ∈ xs, ∀ t u, R x t → R x u → t = u) : ts = us := by
  have first : List.Forall₂ R xs ts := List.forall₂_iff_zip.mpr ⟨length, each _ _⟩
  have second : List.Forall₂ R xs us := List.forall₂_iff_zip.mpr ⟨length', each' _ _⟩
  clear length length' each each'
  induction first generalizing us with
  | nil =>
      cases second
      rfl
  | cons head _ ih =>
      cases second with
      | cons head' rest =>
          rw [unique _ List.mem_cons_self _ _ head head',
            ih (fun x member => unique x (List.mem_cons_of_mem _ member)) rest]

theorem object_inj {fields others : List (String × Value)}
    (same : Value.object fields = Value.object others) : fields = others := by
  refine List.map_injective_iff.mpr (fun a b same => ?_) (Value.map.inj same)
  exact Prod.ext (Scalar.str.inj (Prod.ext_iff.mp same).1) (Prod.ext_iff.mp same).2

variable (children : UniqueChildren useDates entries)
include children

theorem Properties.unique {ns ms : List (TreeKey × TypeTree)}
    (first : Properties useDates entries ns) (second : Properties useDates entries ms) :
    ns = ms := by
  cases first with
  | none absent =>
      cases second with
      | none _ => rfl
      | some given => exact absurd (absent.symm.trans given) (by decide)
  | @some _ fields ts given found length each =>
      cases second with
      | none absent => exact absurd (absent.symm.trans given) (by decide)
      | @some _ others us _ found' length' each' =>
          obtain rfl := object_inj (Option.some.inj (found.symm.trans found'))
          rw [eq_of_zip length each length' each' fun field member =>
            children _ (.property found (List.mem_map_of_mem member))]

omit children in
theorem get?_of_additional {v : Value} (additional : additional? entries = some v) :
    Entries.get? "additionalProperties" entries = some v := by
  unfold additional? at additional
  split at additional
  · rename_i found
    rw [found, ← additional]
  · cases additional

theorem Others.unique {ns ms : List (TreeKey × TypeTree)}
    (first : Others useDates entries ns) (second : Others useDates entries ms) : ns = ms := by
  cases first <;> cases second
  case typed.typed v t describes found w u describes' found' =>
    obtain rfl := Option.some.inj (found.symm.trans found')
    rw [children v (.under (by decide) (get?_of_additional found)) t u describes describes']
  all_goals simp_all

theorem Named.unique {name : Value} {t u : TypeTree}
    (first : Named useDates entries name t) (second : Named useDates entries name u) : t = u := by
  cases first
  case object ns ms properties others isObject =>
    cases second
    case object ns' ms' properties' others' isObject' =>
      rw [Properties.unique children properties properties', Others.unique children others others']
    all_goals simp_all [typeNames]
  case array v t describes found =>
    generalize same : Value.str "array" = name at second
    cases second
    case array w u describes' found' =>
      obtain rfl := Option.some.inj (found.symm.trans found')
      rw [children v (.under (by decide) found) t u describes describes']
    all_goals simp_all [typeNames]
  case other => cases second <;> simp_all [typeNames]
  all_goals
    generalize same : Value.str _ = name at second
    cases second <;> simp_all [typeNames]

theorem Describes.unique_map {inlineNamed : Bool} {t u : TypeTree}
    (first : Describes useDates inlineNamed (.map entries) t)
    (second : Describes useDates inlineNamed (.map entries) u) : t = u := by
  cases first <;> cases second
  case reference.reference name found _ other found' _ =>
    have same := Value.atom.inj (Option.some.inj (found.symm.trans found'))
    rw [schemaReference_injective (Scalar.str.inj same)]
  case joined.joined key c v items ts elements length each found joins
      key' c' v' items' us elements' length' each' found' joins' =>
    cases joins.symm.trans joins'
    cases found.symm.trans found'
    cases elements.symm.trans elements'
    rw [eq_of_zip length each length' each' fun item member =>
      children item (.item joins found elements member)]
  case type.type t _ named _ u _ named' _ => rw [Named.unique children named named']
  case types.types names ts length found each _ names' us length' found' each' _ =>
    cases found.symm.trans found'
    rw [eq_of_zip length each length' each' fun name _ t u => Named.unique children]
  all_goals simp_all [Rule.joins?]

omit children in
/-- **A schema stands for one type only.** -/
theorem Describes.unique {v : Value} {inlineNamed : Bool} {t u : TypeTree}
    (first : Describes useDates inlineNamed v t) (second : Describes useDates inlineNamed v u) :
    t = u := by
  induction v using children_induction generalizing inlineNamed t u with
  | atom a =>
      cases first
      cases second
      rfl
  | list items =>
      cases first
      cases second
      rfl
  | map entries ih =>
      exact Describes.unique_map (fun v child t u => ih v child) first second

end Unique

/-! ## Legible schemas -/

/-- A schema that stands anywhere in a schema. -/
inductive Inside (inner : Value) : Value → Prop
  | self : Inside inner inner
  | child {entries : Entries} {v : Value} : Child entries v → Inside inner v →
      Inside inner (.map entries)

/-- A schema refers to a component schema by name, itself or inside. -/
inductive RefersTo : Bool → Value → String → Prop
  | reference {inlineNamed : Bool} {entries : Entries} {name : String} :
      Entries.get? "$ref" entries = some (.str (schemaReference name)) →
      RefersTo inlineNamed (.map entries) name
  | name {entries : Entries} {name : String} : nameOf? entries = some name →
      RefersTo false (.map entries) name
  | child {inlineNamed : Bool} {entries : Entries} {v : Value} {name : String} :
      Child entries v → RefersTo false v name → RefersTo inlineNamed (.map entries) name

/-- The names of the properties that a schema declares are tame. -/
def TameKeys (entries : Entries) : Prop :=
  ∀ properties, Entries.get? "properties" entries = some (.map properties) →
    ∀ entry ∈ properties, ∀ name, entry.1 = .str name → Text.Tame name

/-- The strings of literals in a schema, and the names of its properties, are tame; names that
it refers to have a letter or a digit. -/
structure Legible (inlineNamed : Bool) (schema : Value) : Prop where
  literals : ∀ entries, Inside (.map entries) schema → ∀ key ∈ ["enum", "const"], ∀ v,
    Entries.get? key entries = some v → v.TameTexts
  properties : ∀ entries, Inside (.map entries) schema → TameKeys entries
  names : ∀ name, RefersTo inlineNamed schema name →
    ∃ c ∈ name.toList, Text.isAlphanumeric c = true

theorem Legible.child {inlineNamed : Bool} {entries : Entries} {v : Value}
    (legible : Legible inlineNamed (.map entries)) (child : Child entries v) : Legible false v where
  literals := fun inner inside => legible.literals inner (.child child inside)
  properties := fun inner inside => legible.properties inner (.child child inside)
  names := fun name refers => legible.names name (.child child refers)

/-- A schema is legible if what it says itself is, and the schemas that stand in it are. -/
theorem Legible.map {inlineNamed : Bool} {entries : Entries}
    (literals : ∀ key ∈ ["enum", "const"], ∀ v, Entries.get? key entries = some v → v.TameTexts)
    (keys : TameKeys entries)
    (reference : ∀ name, Entries.get? "$ref" entries = some (.str (schemaReference name)) →
      ∃ c ∈ name.toList, Text.isAlphanumeric c = true)
    (named : ∀ name, nameOf? entries = some name → ∃ c ∈ name.toList, Text.isAlphanumeric c = true)
    (under : ∀ key ∈ ["items", "additionalProperties"], ∀ v,
      Entries.get? key entries = some v → Legible false v)
    (items : ∀ key ∈ ["oneOf", "anyOf", "allOf"], ∀ v, Entries.get? key entries = some v →
      ∀ item ∈ v.elements?.getD [], Legible false item)
    (properties : ∀ properties, Entries.get? "properties" entries = some (.map properties) →
      ∀ entry ∈ properties, Legible false entry.2) : Legible inlineNamed (.map entries) := by
  have children : ∀ v, Child entries v → Legible false v := fun _ =>
    Child.forall under items properties
  refine ⟨fun inner inside => ?_, fun inner inside => ?_, fun name refers => ?_⟩
  · cases inside with
    | self => exact literals
    | child child inside => exact (children _ child).literals inner inside
  · cases inside with
    | self => exact keys
    | child child inside => exact (children _ child).properties inner inside
  · cases refers with
    | reference refers => exact reference name refers
    | name known => exact named name known
    | child child refers => exact (children _ child).names name refers

end ClientForge.Schema
