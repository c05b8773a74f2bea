/-
# ClientForge.Proofs.Reference.SchemaName -- references to component schemas

A component schema is referred to by `#/components/schemas/` and its name.  The name is read
off the reference in three places: behind the start of the reference, as its last segment,
and as the last key of the pointer.  For a plain name all three are the name itself, and the
reference leads to the schema of that name (`localPart?_schema`).

A name is plain if it has none of the characters that mean something else on the way: a
slash and a tilde belong to the pointer, and an address drops tabs and line ends.
-/
import ClientForge.Proofs.Reference.Target
import ClientForge.Proofs.Text.Pieces

namespace ClientForge

set_option autoImplicit false

/-! ## Texts without a character -/

theorem replacePair_of_not_mem {first : Char} (second new : Char) {s : List Char}
    (absent : first ∉ s) : Text.replacePair first second new s = s := by
  induction s with
  | nil => rfl
  | cons c rest ih =>
      rw [List.mem_cons, not_or] at absent
      cases rest with
      | nil => rfl
      | cons d rest =>
          rw [Text.replacePair, if_neg (fun both => absent.1 both.1.symm), ih absent.2]

/-! ## Bare fragments -/

theorem cleaned_fragment {fragment : List Char}
    (clean : ∀ c ∈ fragment, c ≠ '\t' ∧ c ≠ '\n' ∧ c ≠ '\r') :
    Address.cleaned ('#' :: fragment) = '#' :: fragment := by
  unfold Address.cleaned
  rw [List.dropWhile_cons_of_neg (by decide)]
  refine List.filter_eq_self.mpr fun c member => ?_
  rcases List.mem_cons.mp member with rfl | inside
  · decide
  · obtain ⟨tab, feed, back⟩ := clean c inside
    simp [tab, feed, back]

theorem splitScheme_fragment (fragment : List Char) :
    Address.splitScheme ('#' :: fragment) = ([], '#' :: fragment) := by
  unfold Address.splitScheme
  rw [Text.cutAt, if_neg (by decide)]
  cases Text.cutAt ':' fragment with
  | mk before after =>
      cases after with
      | none => rfl
      | some rest => exact if_neg (by simp [Address.isAsciiLetter])

/-- A text that begins with a number sign is a fragment and nothing else. -/
theorem withoutFragment_fragment {text : String} {fragment : List Char}
    (begins : text.toList = '#' :: fragment)
    (clean : ∀ c ∈ fragment, c ≠ '\t' ∧ c ≠ '\n' ∧ c ≠ '\r') :
    Address.withoutFragment text = .ok ("", String.ofList fragment) := by
  have address : Address.ofText text = .ok ⟨[], [], [], [], [], fragment⟩ := by
    unfold Address.ofText
    rw [begins, cleaned_fragment clean, splitScheme_fragment]
    rfl
  have sign : text.toList.contains '#' = true := by simp [begins]
  rw [Address.withoutFragment, if_pos sign, address]
  rfl

/-- A fragment that begins with a slash is a pointer. -/
theorem partAt_of_slash {document part : Value} {fragment : String} {steps : List Char}
    (begins : fragment.toList = '/' :: steps) :
    Resolver.partAt document fragment = .ok part ↔
      Pointer.follow document (Pointer.keys fragment.toList) = some part := by
  have given : ¬ (fragment = "" ∨ fragment = "#") := by
    rintro (rfl | rfl) <;> cases begins
  have slash : ¬ (fragment ≠ "" ∧ fragment.toList.head? ≠ some '/') := by simp [begins]
  rw [Resolver.partAt, if_neg slash, Pointer.find, if_neg given]
  cases Pointer.follow document (Pointer.keys fragment.toList) <;> simp [reject]

/-! ## Plain names -/

/-- A name without slashes, tildes, tabs and line ends. -/
def IsPlainName (name : String) : Prop :=
  ∀ c ∈ name.toList, c ≠ '/' ∧ c ≠ '~' ∧ c ≠ '\t' ∧ c ≠ '\n' ∧ c ≠ '\r'

instance (name : String) : Decidable (IsPlainName name) := List.decidableBAll _ name.toList

/-- The reference to the component schema of a name. -/
def schemaReference (name : String) : String := schemaReferenceStart ++ name

theorem toList_schemaReference (name : String) :
    (schemaReference name).toList =
      '#' :: '/' :: ("components".toList ++ '/' :: ("schemas".toList ++ '/' :: name.toList)) := by
  rw [schemaReference, String.toList_append]
  rfl

theorem isSchemaReference_iff (reference : String) :
    isSchemaReference reference = true ↔ ∃ name, reference = schemaReference name := by
  rw [isSchemaReference, List.isPrefixOf_iff_prefix]
  constructor
  · rintro ⟨rest, same⟩
    refine ⟨String.ofList rest, String.toList_inj.mp ?_⟩
    rw [schemaReference, String.toList_append, String.toList_ofList, same]
  · rintro ⟨name, rfl⟩
    exact ⟨name.toList, (String.toList_append).symm⟩

theorem schemaReference_injective {name other : String}
    (same : schemaReference name = schemaReference other) : name = other := by
  have texts := congrArg String.toList same
  rw [schemaReference, schemaReference, String.toList_append, String.toList_append] at texts
  exact String.toList_inj.mp (List.append_cancel_left texts)

/-- The name behind the start of the reference. -/
theorem drop_schemaReference (name : String) :
    String.ofList ((schemaReference name).toList.drop schemaReferenceStart.length) = name := by
  rw [schemaReference, String.toList_append, ← String.length_toList, List.drop_left,
    String.ofList_toList]

section Plain

variable {name : String}

theorem IsPlainName.slash (plain : IsPlainName name) : '/' ∉ name.toList :=
  fun member => (plain _ member).1 rfl

/-- The last segment of the reference. -/
theorem nameOf_schemaReference (plain : IsPlainName name) :
    Resolver.nameOf (schemaReference name) = name := by
  have segments : Text.splitOn '/' (schemaReference name).toList =
      [['#'], "components".toList, "schemas".toList, name.toList] := by
    rw [toList_schemaReference]
    rw [show ∀ rest : List Char, '#' :: '/' :: rest = ['#'] ++ '/' :: rest from fun _ => rfl]
    rw [Text.splitOn_append, Text.splitOn_append, Text.splitOn_append,
      Text.splitOn_of_not_mem plain.slash]
    rfl
  rw [Resolver.nameOf, segments]
  exact String.ofList_toList

theorem withoutFragment_schemaReference (plain : IsPlainName name) :
    Address.withoutFragment (schemaReference name) =
      .ok ("", "/components/schemas/" ++ name) := by
  have rest : String.ofList ("/components/schemas/".toList ++ name.toList) =
      "/components/schemas/" ++ name := by
    rw [← String.toList_append, String.ofList_toList]
  rw [← rest]
  refine withoutFragment_fragment (toList_schemaReference name) fun c member => ?_
  rcases List.mem_append.mp member with fixed | inside
  · have clean : "/components/schemas/".toList.all
        (fun c => decide (c ≠ '\t' ∧ c ≠ '\n' ∧ c ≠ '\r')) = true := rfl
    exact of_decide_eq_true (List.all_eq_true.mp clean c fixed)
  · exact (plain c inside).2.2

/-- The keys of the pointer. -/
theorem keys_schema (plain : IsPlainName name) :
    Pointer.keys ("/components/schemas/" ++ name).toList = ["components", "schemas", name] := by
  have steps : Text.splitOn '/' ("components".toList ++ '/' :: ("schemas".toList ++
      '/' :: name.toList)) = ["components".toList, "schemas".toList, name.toList] := by
    rw [Text.splitOn_append, Text.splitOn_append, Text.splitOn_of_not_mem plain.slash]
    rfl
  have tilde : '~' ∉ name.toList := fun member => (plain _ member).2.1 rfl
  have last : String.ofList (Pointer.unescape name.toList) = name := by
    rw [Pointer.unescape, replacePair_of_not_mem _ _ tilde, replacePair_of_not_mem _ _ tilde,
      String.ofList_toList]
  rw [String.toList_append]
  change Pointer.keys ('/' :: ("components".toList ++ '/' :: ("schemas".toList ++
    '/' :: name.toList))) = _
  simp only [Pointer.keys, steps, List.map_cons, List.map_nil, last]
  rfl

/-- The reference of a plain name leads to the schema of that name. -/
theorem localPart?_schema (plain : IsPlainName name) (document : Value) :
    Resolver.localPart? document (schemaReference name) =
      Pointer.follow document ["components", "schemas", name] := by
  have cut := withoutFragment_schemaReference plain
  have keys := keys_schema plain
  have text : ("/components/schemas/" ++ name).toList = '/' ::
      ("components/schemas/".toList ++ name.toList) := by
    rw [String.toList_append]
    rfl
  generalize "/components/schemas/" ++ name = fragment at cut keys text
  refine Option.ext fun part => ?_
  rw [Resolver.localPart?_eq_some_iff, cut]
  constructor
  · rintro ⟨_, same, found⟩
    cases same
    rwa [partAt_of_slash text, keys] at found
  · intro found
    refine ⟨fragment, rfl, ?_⟩
    rwa [partAt_of_slash text, keys]

theorem isLocal_schemaReference (plain : IsPlainName name) :
    Resolver.IsLocal (schemaReference name) :=
  ⟨_, withoutFragment_schemaReference plain⟩

/-- A plain name is the tag of a part that has no name of its own. -/
theorem Resolver.tagged_of_unnamed {part : Entries} (plain : IsPlainName name)
    (unnamed : Entries.get? schemaNameKey part = none) :
    tagged (schemaReference name) (.map part) =
      .map (part ++ [(.str schemaNameKey, .str name)]) := by
  have schema := (isSchemaReference_iff _).mpr ⟨name, rfl⟩
  simp [tagged, schema, Entries.has, unnamed, nameOf_schemaReference plain]

end Plain

/-! ## Documents of schemas -/

/-- A document that consists of component schemas. -/
def schemaDocument (schemas : List (String × Value)) : Value :=
  .object [("components", .object [("schemas", .object schemas)])]

/-- A schema that is the reference of a component schema, with more keys next to it. -/
def schemaNode (name : String) (more : List (String × Value)) : Value :=
  .object (("$ref", .str (schemaReference name)) :: more)

theorem follow_schemaDocument (schemas : List (String × Value)) (name : String) :
    Pointer.follow (schemaDocument schemas) ["components", "schemas", name] =
      Entries.get? name (schemas.map fun field => (.str field.1, field.2)) := by
  have within : ∀ entries : Entries,
      Pointer.follow (.map entries) [name] = Entries.get? name entries := by
    intro entries
    rw [Pointer.follow]
    cases Entries.get? name entries with
    | none => rfl
    | some v => cases v <;> rfl
  exact within _

end ClientForge
