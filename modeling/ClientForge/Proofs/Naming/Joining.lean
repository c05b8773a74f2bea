/-
# ClientForge.Proofs.Naming.Joining -- names that are made of names

The name of an operation is cut into words and joined, and the names of its hook, its key
function and its types are made of that name by cutting and joining once more.  A separator
between two names cuts neither of them (`pascalChars_append`), and a name of letters and numbers
alone is joined again as it was, with a capital (`pascalChars_of_alphanumeric`): the humps at
which it is cut are capitals already.  So what stands behind the last separator of a name is
found at the end of the joined name (`pascalChars_suffix`).

No name of a type begins with a small letter of ASCII (`pascalChars_head`).  A name of ASCII may
be joined any number of times (`pascalChars_camelChars`); beyond ASCII this is not so, since a
letter may become a letter and a mark when its case changes, and a mark separates words.
-/
import ClientForge.Proofs.Naming.Characters

namespace ClientForge.Naming

set_option autoImplicit false

open Text (isAlphanumeric upperChar lowerChar)

/-! ## Cutting -/

theorem humpsApart_blank (a b : List Char) :
    humpsApart (a ++ ' ' :: b) = humpsApart a ++ ' ' :: humpsApart b := by
  have before (d : Char) : (isSmallOrDigit ' ' && isCapital d) = false := rfl
  have behind (c : Char) : (isSmallOrDigit c && isCapital ' ') = false := Bool.and_false _
  fun_induction humpsApart a with
  | case1 =>
      cases b with
      | nil => rfl
      | cons d rest => simp [humpsApart, before]
  | case2 c =>
      cases b with
      | nil => simp [humpsApart, behind]
      | cons d rest => simp [humpsApart, before, behind]
  | case3 c d rest hump ih => simp_all [humpsApart]
  | case4 c d rest flat ih => simp_all [humpsApart]

theorem fields_blank (a b : List Char) : fields (a ++ ' ' :: b) = fields a ++ fields b := by
  unfold fields
  rw [Text.splitOn_append, List.filter_append]

/-- The pieces of a text with a blank in it are those on both sides of the blank. -/
theorem pieces_blank (a b : List Char) :
    fields (humpsApart (a ++ ' ' :: b)) = fields (humpsApart a) ++ fields (humpsApart b) := by
  rw [humpsApart_blank, fields_blank]

/-- A character of a name, or a blank for a separator. -/
def blanked (c : Char) : Char := if isAlphanumeric c then c else ' '

/-- For the words it makes no difference how many separators there are. -/
theorem fields_separated (start : List Char) {behind : Bool} (name : List Char)
    (blank : behind = true → start = [] ∨ ∃ front, start = front ++ [' ']) :
    fields (humpsApart (start ++ separated behind name)) =
      fields (humpsApart (start ++ name.map blanked)) := by
  induction name generalizing start behind with
  | nil => rfl
  | cons c rest ih =>
      unfold separated
      by_cases letter : isAlphanumeric c = true
      · have later := @ih (start ++ [c]) false (fun impossible => by cases impossible)
        simpa [blanked, letter] using later
      · cases behind with
        | false =>
            have later := @ih (start ++ [' ']) true fun _ => Or.inr ⟨start, rfl⟩
            simpa [blanked, letter] using later
        | true =>
            have later := @ih [] true fun _ => Or.inl rfl
            rw [List.nil_append, List.nil_append] at later
            rw [if_neg letter, if_pos rfl, List.map_cons, blanked, if_neg letter, pieces_blank]
            rcases blank rfl with rfl | ⟨front, rfl⟩
            · exact later
            · rw [List.append_assoc, List.singleton_append, pieces_blank, later,
                show front ++ [' '] = front ++ ' ' :: [] from rfl, pieces_blank]
              simp [humpsApart, fields, Text.splitOn]

theorem words_eq (name : List Char) : words name = fields (humpsApart (name.map blanked)) :=
  fields_separated [] name fun impossible => by cases impossible

/-- A separator cuts no word. -/
theorem words_append (a b : List Char) {c : Char} (separator : isAlphanumeric c = false) :
    words (a ++ c :: b) = words a ++ words b := by
  have blank : blanked c = ' ' := if_neg (Bool.eq_false_iff.mp separator)
  rw [words_eq, List.map_append, List.map_cons, blank, pieces_blank, ← words_eq, ← words_eq]

theorem pascalChars_append (a b : List Char) {c : Char} (separator : isAlphanumeric c = false) :
    pascalChars (a ++ c :: b) = pascalChars a ++ pascalChars b := by
  unfold pascalChars
  rw [words_append a b separator, List.flatMap_append]

/-! ## Joining -/

theorem upperChar_of_isCapital {c : Char} (capital : isCapital c = true) : upperChar c = [c] := by
  have table : ∀ n < 0x80, isCapital (Char.ofNat n) = true →
      upperChar (Char.ofNat n) = [Char.ofNat n] := by decide +kernel
  have low : c.toNat < 0x80 := by
    simp only [isCapital, Bool.and_eq_true, decide_eq_true_eq, Char.le_def] at capital
    have last := UInt32.le_iff_toNat_le.mp capital.2
    exact Nat.lt_of_le_of_lt last (by decide)
  have same : Char.ofNat c.toNat = c := Char.ofNat_toNat c
  rw [← same] at capital ⊢
  exact table c.toNat low capital

/-- Where the cut text begins with a character, this begins the first piece. -/
theorem fields_cons {c : Char} (visible : c ≠ ' ') (s : List Char) :
    ∃ piece pieces, fields (c :: s) = (c :: piece) :: pieces ∧
      ∀ d, d ≠ ' ' → fields (d :: c :: s) = (d :: c :: piece) :: pieces := by
  unfold fields
  cases split : Text.splitOn ' ' s with
  | nil => exact absurd split (Text.splitOn_ne_nil ' ' s)
  | cons piece pieces =>
      refine ⟨piece, pieces.filter (!·.isEmpty), ?_, fun d other => ?_⟩
      · simp [Text.splitOn, visible, split]
      · simp [Text.splitOn, visible, other, split]

/-- Nothing is put in front of the first character. -/
theorem humpsApart_cons (c : Char) (rest : List Char) :
    ∃ s, humpsApart (c :: rest) = c :: s := by
  cases rest with
  | nil => exact ⟨[], rfl⟩
  | cons d rest =>
      unfold humpsApart
      split
      · exact ⟨_, rfl⟩
      · exact ⟨_, rfl⟩

/-- A text without blanks is cut at its humps only, and joined again there. -/
theorem fields_humpsApart {c : Char} {rest : List Char} (visible : ∀ d ∈ c :: rest, d ≠ ' ') :
    ∃ piece pieces, fields (humpsApart (c :: rest)) = (c :: piece) :: pieces ∧
      piece ++ pieces.flatMap capitalized = rest := by
  induction rest generalizing c with
  | nil => exact ⟨[], [], by simp [humpsApart, fields, Text.splitOn, visible c], rfl⟩
  | cons d rest ih =>
      obtain ⟨here, later⟩ := List.forall_mem_cons.mp visible
      obtain ⟨piece, pieces, cut, joined⟩ := ih later
      by_cases hump : (isSmallOrDigit c && isCapital d) = true
      · have capital : upperChar d = [d] :=
          upperChar_of_isCapital (Bool.and_eq_true_iff.mp hump).2
        refine ⟨[], (d :: piece) :: pieces, ?_, by simp [capitalized, capital, joined]⟩
        rw [humpsApart, if_pos hump, ← cut]
        exact (fields_blank [c] _).trans (by simp [fields, Text.splitOn, here])
      · obtain ⟨s, first⟩ := humpsApart_cons d rest
        obtain ⟨piece', pieces', same, longer⟩ :=
          fields_cons (later d List.mem_cons_self) s
        rw [first, same] at cut
        obtain ⟨pieceSame, rfl⟩ := List.cons_eq_cons.mp cut
        obtain ⟨-, rfl⟩ := List.cons_eq_cons.mp pieceSame
        refine ⟨d :: piece', pieces', ?_, by rw [List.cons_append, joined]⟩
        rw [humpsApart, if_neg hump, first]
        exact longer c here

/-- A name of letters and numbers is joined as it is, with a capital. -/
theorem pascalChars_of_alphanumeric {name : List Char}
    (letters : ∀ c ∈ name, isAlphanumeric c = true) : pascalChars name = capitalized name := by
  have unchanged : name.map blanked = name :=
    (List.map_congr_left fun c member => if_pos (letters c member)).trans (List.map_id name)
  have visible : ∀ c ∈ name, c ≠ ' ' := by
    rintro c member rfl
    have blank : isAlphanumeric ' ' = false := by decide
    rw [letters ' ' member] at blank
    cases blank
  unfold pascalChars
  rw [words_eq, unchanged]
  cases name with
  | nil => rfl
  | cons c rest =>
      obtain ⟨piece, pieces, cut, joined⟩ := fields_humpsApart visible
      rw [cut, List.flatMap_cons, capitalized, List.append_assoc, joined, capitalized]

/-- Letters and numbers at the end of a name that begin with a capital stay there. -/
theorem pascalChars_suffix (start : List Char) {c : Char} {rest : List Char}
    (capital : upperChar c = [c]) (letters : ∀ d ∈ c :: rest, isAlphanumeric d = true) :
    ∃ front, pascalChars (start ++ c :: rest) = front ++ c :: rest := by
  by_cases all : ∀ d ∈ start, isAlphanumeric d = true
  · have whole : ∀ d ∈ start ++ c :: rest, isAlphanumeric d = true := by
      intro d member
      exact (List.mem_append.mp member).elim (all d) (letters d)
    rw [pascalChars_of_alphanumeric whole]
    cases start with
    | nil => exact ⟨[], by simp [capitalized, capital]⟩
    | cons first others => exact ⟨upperChar first ++ others, by simp [capitalized]⟩
  · simp only [not_forall] at all
    obtain ⟨d, member, separator⟩ := all
    obtain ⟨a, b, rfl⟩ := List.append_of_mem member
    obtain ⟨front, joined⟩ := pascalChars_suffix b capital letters
    refine ⟨pascalChars a ++ front, ?_⟩
    rw [List.append_assoc, List.cons_append,
      pascalChars_append a _ (Bool.eq_false_iff.mpr separator), joined, List.append_assoc]
termination_by start.length
decreasing_by
  subst_vars
  rw [List.length_append, List.length_cons]
  omega

/-- Behind the capital such an end stays as well where the name becomes that of a variable. -/
theorem camelChars_suffix (start : List Char) {c : Char} {rest : List Char}
    (capital : upperChar c = [c]) (letters : ∀ d ∈ c :: rest, isAlphanumeric d = true) :
    ∃ front, camelChars (start ++ c :: rest) = front ++ rest := by
  obtain ⟨front, joined⟩ := pascalChars_suffix start capital letters
  unfold camelChars
  dsimp only
  rw [joined]
  split
  · exact ⟨'_' :: front ++ [c], by simp⟩
  · cases front with
    | nil => exact ⟨lowerChar c, rfl⟩
    | cons first others => exact ⟨lowerChar first ++ others ++ [c], by simp [uncapitalized]⟩

/-! ## How names begin -/

theorem isSmall_iff (c : Char) : isSmall c = true ↔ 0x61 ≤ c.toNat ∧ c.toNat ≤ 0x7a := by
  simp only [isSmall, Bool.and_eq_true, decide_eq_true_eq, Char.le_def, UInt32.le_iff_toNat_le]
  rfl

/-- The image of a run has no small letter of ASCII. -/
def leavesSmall (r : Text.CaseRun) : Bool :=
  ((r.last : Int) + r.shift).toNat < 0x61 || 0x7a < ((r.first : Int) + r.shift).toNat

theorem upperChar_head {c d : Char} (first : (upperChar c).head? = some d) : isSmall d = false := by
  have runs : ∀ r ∈ Text.upperRuns, r.leadsToNames = true ∧ leavesSmall r = true := by
    decide +kernel
  have expansions : ∀ e ∈ Text.upperExpansions,
      ((e.2.map Char.ofNat).head?.all fun d => !isSmall d) = true := by decide +kernel
  unfold upperChar at first
  split at first
  · rename_i codes found
    obtain ⟨before, later, table, -⟩ := List.lookup_eq_some_iff.mp found
    have listed : (c.toNat, codes) ∈ Text.upperExpansions := by
      rw [table]
      simp
    have none := expansions _ listed
    rw [first] at none
    simpa using none
  · split at first
    · rename_i n mapped
      obtain rfl : Char.ofNat n = d := Option.some.inj first
      obtain ⟨r, member, low, high, rfl⟩ := Text.exists_run mapped
      obtain ⟨leads, leaves⟩ := runs r member
      simp only [Text.CaseRun.leadsToNames, leavesSmall, Bool.and_eq_true, Bool.or_eq_true,
        decide_eq_true_eq] at leads leaves
      obtain ⟨⟨positive, -⟩, valid⟩ := leads
      rw [Bool.eq_false_iff, ne_eq, isSmall_iff,
        Text.toNat_ofNat valid (by omega) (by omega)]
      omega
    · rename_i unmapped
      obtain rfl : c = d := Option.some.inj first
      rw [Bool.eq_false_iff, ne_eq, isSmall_iff]
      rintro ⟨low, high⟩
      have letters : Text.mapByRuns Text.upperRuns c.toNat =
          some ((c.toNat : Int) + -32).toNat := by
        rw [Text.upperRuns, Text.mapByRuns, if_neg (by dsimp only; omega),
          if_pos ⟨high, Nat.mod_one _⟩]
      rw [letters] at unmapped
      cases unmapped

/-- The name of a type begins with no small letter of ASCII. -/
theorem pascalChars_head {name : List Char} {c : Char}
    (first : (pascalChars name).head? = some c) : isSmall c = false := by
  unfold pascalChars at first
  cases cut : words name with
  | nil =>
      rw [cut] at first
      cases first
  | cons word others =>
      have listed : word ∈ words name := by
        rw [cut]
        exact List.mem_cons_self
      obtain ⟨nonempty, letters⟩ := mem_words listed
      obtain ⟨d, rest, rfl⟩ := List.exists_cons_of_ne_nil nonempty
      obtain ⟨some, -⟩ := Text.upperChar_isNameChar
        (Text.isNameChar_of_alphanumeric (letters d List.mem_cons_self))
      rw [cut, List.flatMap_cons, capitalized, List.append_assoc,
        List.head?_append_of_ne_nil _ some] at first
      exact upperChar_head first

/-! ## ASCII -/

/-- A text of ASCII. -/
def IsAscii (name : List Char) : Prop := ∀ c ∈ name, c.toNat < 0x80

instance (name : List Char) : Decidable (IsAscii name) :=
  inferInstanceAs (Decidable (∀ c ∈ name, c.toNat < 0x80))

/-- What holds of the first code points holds of the characters of ASCII. -/
theorem of_ascii {P : Char → Prop} (table : ∀ n < 0x80, P (Char.ofNat n)) {c : Char}
    (ascii : c.toNat < 0x80) : P c := by
  have holds := table c.toNat ascii
  rwa [Char.ofNat_toNat] at holds

/-- A letter or digit of ASCII has one of them as its capital, which is its own capital. -/
theorem upperChar_ascii {c : Char} (ascii : c.toNat < 0x80) (letter : isAlphanumeric c = true) :
    ∃ d, upperChar c = [d] ∧ d.toNat < 0x80 ∧ isAlphanumeric d = true ∧ upperChar d = [d] := by
  have table : ∀ n < 0x80, isAlphanumeric (Char.ofNat n) = true →
      (upperChar (Char.ofNat n)).length = 1 ∧ ∀ d ∈ upperChar (Char.ofNat n),
        d.toNat < 0x80 ∧ isAlphanumeric d = true ∧ upperChar d = [d] := by decide +kernel
  obtain ⟨single, each⟩ := of_ascii (P := fun c => isAlphanumeric c = true →
    (upperChar c).length = 1 ∧ ∀ d ∈ upperChar c,
      d.toNat < 0x80 ∧ isAlphanumeric d = true ∧ upperChar d = [d]) table ascii letter
  obtain ⟨d, only⟩ := List.length_eq_one_iff.mp single
  exact ⟨d, only, each d (by simp [only])⟩

/-- A capital of ASCII is the capital of its small letter. -/
theorem lowerChar_ascii {c : Char} (ascii : c.toNat < 0x80) (letter : isAlphanumeric c = true)
    (capital : upperChar c = [c]) :
    ∃ d, lowerChar c = [d] ∧ isAlphanumeric d = true ∧ upperChar d = [c] ∧
      (Text.isDigit c || isSmall d) = true := by
  have table : ∀ n < 0x80, isAlphanumeric (Char.ofNat n) = true →
      upperChar (Char.ofNat n) = [Char.ofNat n] →
      (lowerChar (Char.ofNat n)).length = 1 ∧ ∀ d ∈ lowerChar (Char.ofNat n),
        isAlphanumeric d = true ∧ upperChar d = [Char.ofNat n] ∧
          (Text.isDigit (Char.ofNat n) || isSmall d) = true := by decide +kernel
  obtain ⟨single, each⟩ := of_ascii (P := fun c => isAlphanumeric c = true →
    upperChar c = [c] → (lowerChar c).length = 1 ∧ ∀ d ∈ lowerChar c,
      isAlphanumeric d = true ∧ upperChar d = [c] ∧ (Text.isDigit c || isSmall d) = true)
    table ascii letter capital
  obtain ⟨d, only⟩ := List.length_eq_one_iff.mp single
  exact ⟨d, only, each d (by simp [only])⟩

/-- A joined name of ASCII has letters and numbers alone, and begins with a capital. -/
theorem pascalChars_ascii {name : List Char} (ascii : IsAscii name) :
    (∀ c ∈ pascalChars name, c.toNat < 0x80 ∧ isAlphanumeric c = true) ∧
      ∀ c, (pascalChars name).head? = some c → upperChar c = [c] := by
  have word : ∀ w ∈ words name, ∃ c rest, capitalized w = c :: rest ∧ upperChar c = [c] ∧
      ∀ d ∈ c :: rest, d.toNat < 0x80 ∧ isAlphanumeric d = true := by
    intro w member
    obtain ⟨nonempty, letters⟩ := mem_words member
    have inside : ∀ c ∈ w, c.toNat < 0x80 ∧ isAlphanumeric c = true := fun c here =>
      ⟨ascii c (mem_of_mem_words member here), letters c here⟩
    obtain ⟨first, rest, rfl⟩ := List.exists_cons_of_ne_nil nonempty
    obtain ⟨here, later⟩ := List.forall_mem_cons.mp inside
    obtain ⟨c, upper, low, letter, capital⟩ := upperChar_ascii here.1 here.2
    exact ⟨c, rest, by rw [capitalized, upper]; rfl, capital,
      List.forall_mem_cons.mpr ⟨⟨low, letter⟩, later⟩⟩
  constructor
  · intro c member
    obtain ⟨w, among, inside⟩ := List.mem_flatMap.mp member
    obtain ⟨d, rest, same, -, each⟩ := word w among
    rw [same] at inside
    exact each c inside
  · intro c first
    unfold pascalChars at first
    cases cut : words name with
    | nil =>
        rw [cut] at first
        cases first
    | cons w others =>
        obtain ⟨d, rest, same, capital, -⟩ := word w (by simp [cut])
        rw [cut, List.flatMap_cons, same] at first
        obtain rfl : d = c := Option.some.inj first
        exact capital

/-- The name of a variable is joined to the name of a type as what it was made of. -/
theorem pascalChars_camelChars {name : List Char} (ascii : IsAscii name) :
    pascalChars (camelChars name) = pascalChars name := by
  obtain ⟨each, head⟩ := pascalChars_ascii ascii
  unfold camelChars
  dsimp only
  generalize pascalChars name = joined at each head
  cases joined with
  | nil => rfl
  | cons c rest =>
      have capital := head c rfl
      have letters : ∀ d ∈ c :: rest, isAlphanumeric d = true := fun d member => (each d member).2
      obtain ⟨low, letter⟩ := each c List.mem_cons_self
      split
      · have lowLine : isAlphanumeric '_' = false := by decide
        have cut := pascalChars_append [] (c :: rest) lowLine
        rw [pascalChars_of_alphanumeric letters, capitalized, capital] at cut
        exact cut
      · obtain ⟨d, lower, small, upper, -⟩ := lowerChar_ascii low letter capital
        have others : ∀ e ∈ d :: rest, isAlphanumeric e = true :=
          List.forall_mem_cons.mpr ⟨small, (List.forall_mem_cons.mp letters).2⟩
        rw [uncapitalized, lower, List.singleton_append, pascalChars_of_alphanumeric others,
          capitalized, upper]
        rfl

/-- The name of a variable begins with a small letter, or with a low line. -/
theorem camelChars_head {name : List Char} (ascii : IsAscii name) {c : Char}
    (first : (camelChars name).head? = some c) : isSmall c = true ∨ c = '_' := by
  obtain ⟨each, head⟩ := pascalChars_ascii ascii
  unfold camelChars at first
  dsimp only at first
  generalize pascalChars name = joined at each head first
  split at first
  · exact Or.inr (Option.some.inj first).symm
  · rename_i letter
    cases joined with
    | nil => cases first
    | cons d rest =>
        obtain ⟨low, alphanumeric⟩ := each d List.mem_cons_self
        obtain ⟨e, lower, -, -, small⟩ := lowerChar_ascii low alphanumeric (head d rfl)
        rw [uncapitalized, lower] at first
        obtain rfl : e = c := Option.some.inj first
        exact Or.inl ((Bool.or_eq_true_iff.mp small).resolve_left letter)

/-! ## Names around a name -/

/-- The name of a hook. -/
theorem camel_use (name : String) : camel ("use-" ++ name) = "use" ++ pascal name := by
  have joined : pascalChars ("use-" ++ name).toList = "Use".toList ++ pascalChars name.toList := by
    rw [String.toList_append]
    exact pascalChars_append "use".toList name.toList (by decide)
  unfold camel camelChars pascal
  rw [joined]
  apply String.toList_inj.mp
  simp only [String.toList_append, String.toList_ofList]
  rfl

/-- The name of a key function. -/
theorem camel_get_key (name : String) :
    camel ("get-" ++ name ++ "-key") = "get" ++ pascal name ++ "Key" := by
  have joined : pascalChars ("get-" ++ name ++ "-key").toList =
      "Get".toList ++ pascalChars name.toList ++ "Key".toList := by
    have key : pascalChars "key".toList = "Key".toList := by decide
    have behind := pascalChars_append name.toList "key".toList (c := '-') (by decide)
    rw [key] at behind
    rw [String.toList_append, String.toList_append, List.append_assoc, List.append_assoc, ← behind]
    exact pascalChars_append "get".toList (name.toList ++ "-key".toList) (by decide)
  unfold camel camelChars pascal
  rw [joined]
  apply String.toList_inj.mp
  simp only [String.toList_append, String.toList_ofList]
  rfl

end ClientForge.Naming
