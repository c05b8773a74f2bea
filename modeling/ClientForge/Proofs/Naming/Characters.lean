/-
# ClientForge.Proofs.Naming.Characters -- the characters of generated names

Generated names are made of letters and numbers of a document, of which some change their case.
So no sign of ASCII but the low line is in a name (`camel_isNameChar`, `pascal_isNameChar`): a
name ends wherever such a sign stands behind it.  That is looked up in the tables of Unicode,
range by range, because a case mapping may lead from one block to another and even into ASCII.

A name that has a letter or a number leaves something (`pascalChars_ne_nil`).
-/
import ClientForge.Naming
import ClientForge.Proofs.Text.Pieces
import ClientForge.Proofs.Text.Within

namespace ClientForge

set_option autoImplicit false

namespace Text

/-! ## Code points -/

/-- A code point beyond ASCII, or a letter, a digit or the low line. -/
def isNameCode (n : Nat) : Bool :=
  0x80 ≤ n || (0x30 ≤ n && n ≤ 0x39) || (0x41 ≤ n && n ≤ 0x5a) || (0x61 ≤ n && n ≤ 0x7a) ||
    n == 0x5f

/-- A character that may stand in a generated name. -/
def IsNameChar (c : Char) : Prop := isNameCode c.toNat = true

instance (c : Char) : Decidable (IsNameChar c) := inferInstanceAs (Decidable (_ = _))

/-- The code points from `lo` to `hi` lie beyond ASCII, or in one of its alphabets. -/
def isNameRange (lo hi : Nat) : Bool :=
  0x80 ≤ lo || (0x30 ≤ lo && hi ≤ 0x39) || (0x41 ≤ lo && hi ≤ 0x5a) || (0x61 ≤ lo && hi ≤ 0x7a)

theorem isNameCode_of_range {lo hi n : Nat} (range : isNameRange lo hi = true) (low : lo ≤ n)
    (high : n ≤ hi) : isNameCode n = true := by
  simp only [isNameRange, isNameCode, Bool.or_eq_true, Bool.and_eq_true, decide_eq_true_eq,
    beq_iff_eq] at range ⊢
  omega

/-- The code points from `lo` to `hi` are those of characters. -/
def isValidRange (lo hi : Nat) : Bool := hi < 0xd800 || (0xdfff < lo && hi < 0x110000)

theorem toNat_ofNat {lo hi n : Nat} (range : isValidRange lo hi = true) (low : lo ≤ n)
    (high : n ≤ hi) : (Char.ofNat n).toNat = n := by
  have valid : n.isValidChar := by
    simp only [isValidRange, Bool.or_eq_true, Bool.and_eq_true, decide_eq_true_eq] at range
    unfold Nat.isValidChar
    omega
  rw [Char.ofNat, dif_pos valid]
  rfl

theorem exists_range {ranges : List (Nat × Nat)} {n : Nat} (inside : inRanges ranges n = true) :
    ∃ r ∈ ranges, r.1 ≤ n ∧ n ≤ r.2 := by
  induction ranges with
  | nil => cases inside
  | cons r rest ih =>
      obtain ⟨lo, hi⟩ := r
      unfold inRanges at inside
      split at inside
      · cases inside
      · rename_i low
        rw [Bool.or_eq_true, decide_eq_true_eq] at inside
        rcases inside with high | later
        · exact ⟨(lo, hi), List.mem_cons_self, by omega, high⟩
        · obtain ⟨r, member, bounds⟩ := ih later
          exact ⟨r, List.mem_cons_of_mem _ member, bounds⟩

theorem isNameChar_of_alphanumeric {c : Char} (letter : isAlphanumeric c = true) :
    IsNameChar c := by
  have table : ∀ r ∈ alphanumericRanges, isNameRange r.1 r.2 = true := by decide +kernel
  obtain ⟨r, member, low, high⟩ := exists_range letter
  exact isNameCode_of_range (table r member) low high

/-! ## Case mappings -/

/-- The image of a run has only code points of names. -/
def CaseRun.leadsToNames (r : CaseRun) : Bool :=
  0 ≤ (r.first : Int) + r.shift &&
    isNameRange ((r.first : Int) + r.shift).toNat ((r.last : Int) + r.shift).toNat &&
    isValidRange ((r.first : Int) + r.shift).toNat ((r.last : Int) + r.shift).toNat

theorem exists_run {runs : List CaseRun} {n m : Nat} (mapped : mapByRuns runs n = some m) :
    ∃ r ∈ runs, r.first ≤ n ∧ n ≤ r.last ∧ m = ((n : Int) + r.shift).toNat := by
  induction runs with
  | nil => cases mapped
  | cons r rest ih =>
      unfold mapByRuns at mapped
      split at mapped
      · cases mapped
      · rename_i low
        split at mapped
        · rename_i high
          cases mapped
          exact ⟨r, List.mem_cons_self, by omega, high.1, rfl⟩
        · obtain ⟨other, member, image⟩ := ih mapped
          exact ⟨other, List.mem_cons_of_mem _ member, image⟩

/-- A character that is mapped by such runs becomes a character of names. -/
theorem isNameChar_mapByRuns {runs : List CaseRun} (table : ∀ r ∈ runs, r.leadsToNames = true)
    {n m : Nat} (mapped : mapByRuns runs n = some m) : IsNameChar (Char.ofNat m) := by
  obtain ⟨r, member, low, high, rfl⟩ := exists_run mapped
  have image := table r member
  simp only [CaseRun.leadsToNames, Bool.and_eq_true, decide_eq_true_eq] at image
  obtain ⟨⟨positive, names⟩, valid⟩ := image
  have start : ((r.first : Int) + r.shift).toNat ≤ ((n : Int) + r.shift).toNat := by omega
  have finish : ((n : Int) + r.shift).toNat ≤ ((r.last : Int) + r.shift).toNat := by omega
  rw [IsNameChar, toNat_ofNat valid start finish]
  exact isNameCode_of_range names start finish

theorem upperRuns_leadToNames : ∀ r ∈ upperRuns, r.leadsToNames = true := by decide +kernel

theorem lowerRuns_leadToNames : ∀ r ∈ lowerRuns, r.leadsToNames = true := by decide +kernel

/-- What a letter expands to is not empty, and made of characters of names. -/
theorem upperExpansions_leadToNames : ∀ e ∈ upperExpansions,
    e.2 ≠ [] ∧ ∀ n ∈ e.2, isNameCode n = true ∧ isValidRange n n = true := by decide +kernel

theorem upperChar_isNameChar {c : Char} (name : IsNameChar c) :
    upperChar c ≠ [] ∧ ∀ d ∈ upperChar c, IsNameChar d := by
  unfold upperChar
  split
  · rename_i codes found
    obtain ⟨before, later, table, -⟩ := List.lookup_eq_some_iff.mp found
    have member : (c.toNat, codes) ∈ upperExpansions := by
      rw [table]
      simp
    obtain ⟨nonempty, each⟩ := upperExpansions_leadToNames _ member
    refine ⟨by simpa using nonempty, fun d image => ?_⟩
    obtain ⟨n, among, rfl⟩ := List.mem_map.mp image
    obtain ⟨code, valid⟩ := each n among
    rw [IsNameChar, toNat_ofNat valid (Nat.le_refl n) (Nat.le_refl n)]
    exact code
  · split
    · rename_i n mapped
      refine ⟨List.cons_ne_nil _ _, fun d image => ?_⟩
      rw [List.mem_singleton.mp image]
      exact isNameChar_mapByRuns upperRuns_leadToNames mapped
    · refine ⟨List.cons_ne_nil _ _, fun d image => ?_⟩
      rw [List.mem_singleton.mp image]
      exact name

theorem lowerChar_isNameChar {c : Char} (name : IsNameChar c) :
    ∀ d ∈ lowerChar c, IsNameChar d := by
  unfold lowerChar
  split
  · have dotted : ∀ d ∈ [Char.ofNat 0x69, Char.ofNat 0x307], IsNameChar d := by decide
    exact dotted
  · intro d image
    split at image
    · rename_i n mapped
      rw [List.mem_singleton.mp image]
      exact isNameChar_mapByRuns lowerRuns_leadToNames mapped
    · rw [List.mem_singleton.mp image]
      exact name

end Text

namespace Naming

open Text (IsNameChar isAlphanumeric)

/-! ## Words -/

theorem mem_separated {name : List Char} {behind : Bool} {c : Char}
    (member : c ∈ separated behind name) : c = ' ' ∨ c ∈ name ∧ isAlphanumeric c = true := by
  induction name generalizing behind with
  | nil => cases member
  | cons d rest ih =>
      unfold separated at member
      have later : ∀ {behind}, c ∈ separated behind rest →
          c = ' ' ∨ c ∈ d :: rest ∧ isAlphanumeric c = true := by
        intro behind member
        rcases ih member with blank | ⟨there, letter⟩
        · exact Or.inl blank
        · exact Or.inr ⟨List.mem_cons_of_mem _ there, letter⟩
      split at member
      · rename_i letter
        rcases List.mem_cons.mp member with rfl | behind
        · exact Or.inr ⟨List.mem_cons_self, letter⟩
        · exact later behind
      · split at member
        · exact later member
        · rcases List.mem_cons.mp member with rfl | behind
          · exact Or.inl rfl
          · exact later behind

theorem mem_separated_of_alphanumeric {name : List Char} {behind : Bool} {c : Char}
    (there : c ∈ name) (letter : isAlphanumeric c = true) : c ∈ separated behind name := by
  induction name generalizing behind with
  | nil => cases there
  | cons d rest ih =>
      unfold separated
      rcases List.mem_cons.mp there with rfl | later
      · rw [if_pos letter]
        exact List.mem_cons_self
      · split
        · exact List.mem_cons_of_mem _ (ih later)
        · split
          · exact ih later
          · exact List.mem_cons_of_mem _ (ih later)

theorem mem_humpsApart {s : List Char} {c : Char} :
    c ∈ humpsApart s → c = ' ' ∨ c ∈ s := by
  fun_induction humpsApart s with
  | case1 => exact Or.inr
  | case2 d => exact Or.inr
  | case3 d e rest hump ih =>
      intro member
      rcases List.mem_cons.mp member with rfl | member
      · exact Or.inr List.mem_cons_self
      · rcases List.mem_cons.mp member with blank | behind
        · exact Or.inl blank
        · exact (ih behind).imp id (List.mem_cons_of_mem _)
  | case4 d e rest flat ih =>
      intro member
      rcases List.mem_cons.mp member with rfl | behind
      · exact Or.inr List.mem_cons_self
      · exact (ih behind).imp id (List.mem_cons_of_mem _)

theorem mem_humpsApart_of_mem {s : List Char} {c : Char} : c ∈ s → c ∈ humpsApart s := by
  fun_induction humpsApart s with
  | case1 => exact id
  | case2 d => exact id
  | case3 d e rest hump ih =>
      intro member
      rcases List.mem_cons.mp member with rfl | behind
      · exact List.mem_cons_self
      · exact List.mem_cons_of_mem _ (List.mem_cons_of_mem _ (ih behind))
  | case4 d e rest flat ih =>
      intro member
      rcases List.mem_cons.mp member with rfl | behind
      · exact List.mem_cons_self
      · exact List.mem_cons_of_mem _ (ih behind)

/-- A word has letters and numbers of its name, and at least one. -/
theorem mem_words {name word : List Char} (member : word ∈ words name) :
    word ≠ [] ∧ ∀ c ∈ word, isAlphanumeric c = true := by
  obtain ⟨piece, nonempty⟩ := List.mem_filter.mp member
  refine ⟨by simpa using nonempty, fun c inside => ?_⟩
  obtain ⟨there, visible⟩ := Text.mem_splitOn piece inside
  rcases mem_humpsApart there with blank | apart
  · exact absurd blank visible
  · rcases mem_separated apart with blank | ⟨-, letter⟩
    · exact absurd blank visible
    · exact letter

theorem mem_of_mem_words {name word : List Char} (member : word ∈ words name) {c : Char}
    (inside : c ∈ word) : c ∈ name := by
  obtain ⟨there, visible⟩ := Text.mem_splitOn (List.mem_filter.mp member).1 inside
  rcases mem_humpsApart there with blank | apart
  · exact absurd blank visible
  · rcases mem_separated apart with blank | ⟨found, -⟩
    · exact absurd blank visible
    · exact found

theorem exists_word {name : List Char} {c : Char} (there : c ∈ name)
    (letter : isAlphanumeric c = true) : ∃ word, word ∈ words name := by
  have visible : c ≠ ' ' := by
    rintro rfl
    have blank : isAlphanumeric ' ' = false := by decide
    rw [blank] at letter
    cases letter
  have apart : c ∈ humpsApart (separated false name) :=
    mem_humpsApart_of_mem (mem_separated_of_alphanumeric there letter)
  obtain ⟨piece, member, inside⟩ := Text.exists_mem_splitOn apart visible
  refine ⟨piece, List.mem_filter.mpr ⟨member, ?_⟩⟩
  simpa using List.ne_nil_of_mem inside

/-! ## Names -/

theorem capitalized_isNameChar {word : List Char} (nonempty : word ≠ [])
    (letters : ∀ c ∈ word, isAlphanumeric c = true) :
    capitalized word ≠ [] ∧ ∀ c ∈ capitalized word, IsNameChar c := by
  cases word with
  | nil => exact absurd rfl nonempty
  | cons d rest =>
      obtain ⟨first, later⟩ := List.forall_mem_cons.mp letters
      obtain ⟨some, upper⟩ := Text.upperChar_isNameChar (Text.isNameChar_of_alphanumeric first)
      refine ⟨by simp [capitalized, some], fun c member => ?_⟩
      rcases List.mem_append.mp member with here | behind
      · exact upper c here
      · exact Text.isNameChar_of_alphanumeric (later c behind)

theorem pascal_isNameChar {name : List Char} : ∀ c ∈ pascalChars name, IsNameChar c := by
  intro c member
  obtain ⟨word, among, inside⟩ := List.mem_flatMap.mp member
  obtain ⟨nonempty, letters⟩ := mem_words among
  exact (capitalized_isNameChar nonempty letters).2 c inside

theorem camel_isNameChar {name : List Char} : ∀ c ∈ camelChars name, IsNameChar c := by
  intro c member
  unfold camelChars at member
  dsimp only at member
  split at member
  · rcases List.mem_cons.mp member with rfl | behind
    · decide
    · exact pascal_isNameChar c behind
  · have joined : ∀ c ∈ pascalChars name, IsNameChar c := pascal_isNameChar
    cases pascal : pascalChars name with
    | nil =>
        rw [pascal] at member
        cases member
    | cons first rest =>
        rw [pascal] at member joined
        obtain ⟨here, later⟩ := List.forall_mem_cons.mp joined
        rcases List.mem_append.mp member with lower | behind
        · exact Text.lowerChar_isNameChar here c lower
        · exact later c behind

/-- A name that has a letter or a number is the name of a type. -/
theorem pascalChars_ne_nil {name : List Char}
    (letters : ∃ c ∈ name, isAlphanumeric c = true) : pascalChars name ≠ [] := by
  obtain ⟨c, there, letter⟩ := letters
  obtain ⟨word, member⟩ := exists_word there letter
  obtain ⟨nonempty, each⟩ := mem_words member
  intro empty
  have none := List.flatMap_eq_nil_iff.mp empty word member
  exact (capitalized_isNameChar nonempty each).1 none

end Naming

end ClientForge
