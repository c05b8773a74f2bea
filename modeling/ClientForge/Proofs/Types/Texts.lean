/-
# ClientForge.Proofs.Types.Texts -- texts that read as types

Types are written without looking at trees: whether a text needs parentheses is decided by
counting its brackets (`TypeExpr.hasTopLevel`).  `Reads` is what makes both ways agree, for a
text that may stand anywhere inside another:

* wherever it stands, it is read as the same pieces (`scanned`);
* behind it as many brackets are open as in front of it, so what is found behind it is found
  from in front of it (`balanced`);
* a sign of a connective among its pieces is found by the count (`found`).

The last says that a text in which nothing is found has no such sign to bind too loosely;
that the count also finds signs inside strings only costs parentheses.  From `Reads` follows
for each way of writing a type that the text has the tree (`Shows`).
-/
import ClientForge.Proofs.Types.Reader
import ClientForge.Types.Expression

namespace ClientForge.TypeText

set_option autoImplicit false

open TypeExpr (hasTopLevelFrom hasTopLevel)

/-! ## Characters -/

/-- The characters that mean something between words. -/
def separators : List Char :=
  [' ', '(', ')', '[', ']', '\x7b', '\x7d', '<', '>', '|', '&', ';', ',', ':', '?', '\'', '"']

theorem isWordChar_of_mem_separators : ∀ c ∈ separators, isWordChar c = false := by decide

theorem isWordChar_not_mem {c : Char} (word : isWordChar c = true) : c ∉ separators := by
  intro member
  rw [isWordChar_of_mem_separators c member] at word
  cases word

theorem isSign_mem {c : Char} (sign : isSign c = true) : c ∈ separators := by
  simp only [isSign, isOpening, isClosing, Bool.or_eq_true, beq_iff_eq] at sign
  simp only [separators, List.mem_cons]
  tauto

/-- A character that the count of open brackets passes over. -/
def IsBracketless (c : Char) : Prop := TypeExpr.isOpening c = false ∧ TypeExpr.isClosing c = false

instance (c : Char) : Decidable (IsBracketless c) :=
  inferInstanceAs (Decidable (TypeExpr.isOpening c = false ∧ TypeExpr.isClosing c = false))

theorem isBracketless_of_not_mem {c : Char} (plain : c ∉ separators) : IsBracketless c := by
  simp only [separators, List.mem_cons, not_or] at plain
  simp only [IsBracketless, TypeExpr.isOpening, TypeExpr.isClosing, Bool.or_eq_false_iff,
    beq_eq_false_iff_ne]
  tauto

/-- A word ends in front of the rest of a text. -/
def StartsApart : List Char → Prop
  | [] => True
  | c :: _ => c = ' ' ∨ isSign c = true

theorem StartsApart.append {text rest : List Char} (first : StartsApart text)
    (second : StartsApart rest) : StartsApart (text ++ rest) := by
  cases text with
  | nil => exact second
  | cons c text => exact first

/-! ## Scanning -/

section Scanning

variable {rest : List Char}

theorem tokens?_blank : tokens? .between (' ' :: rest) = tokens? .between rest := by
  rw [tokens?, if_pos rfl]

theorem tokens?_sign {c : Char} (sign : isSign c = true) :
    tokens? .between (c :: rest) = (tokens? .between rest).map (.sign c :: ·) := by
  have other : c ≠ ' ' := by
    rintro rfl
    revert sign
    decide
  rw [tokens?, if_neg other, if_pos sign]

theorem tokens?_word_end {read : List Char} (apart : StartsApart rest) :
    tokens? (.word read) rest = (tokens? .between rest).map (.word read.reverse :: ·) := by
  cases rest with
  | nil => rfl
  | cons c rest =>
      rcases apart with blank | sign
      · rw [blank, tokens?_blank, tokens?, if_pos rfl]
      · have other : c ≠ ' ' := by
          rintro rfl
          revert sign
          decide
        rw [tokens?_sign sign, Option.map_map, tokens?, if_neg other, if_pos sign]
        rfl

theorem tokens?_wordChar {c : Char} (word : isWordChar c = true) (read : List Char) :
    tokens? .between (c :: rest) = tokens? (.word [c]) rest ∧
      tokens? (.word read) (c :: rest) = tokens? (.word (c :: read)) rest := by
  have plain := isWordChar_not_mem word
  have blank : c ≠ ' ' := fun same => plain (same ▸ by decide)
  have sign : ¬ isSign c = true := fun sign => plain (isSign_mem sign)
  have quote : ¬ isQuote c = true := by
    intro quote
    simp only [isQuote, Bool.or_eq_true, beq_iff_eq] at quote
    rcases quote with rfl | rfl <;> exact plain (by decide)
  constructor
  · rw [tokens?, if_neg blank, if_neg sign, if_neg quote, if_pos word]
  · rw [tokens?, if_neg blank, if_neg sign, if_pos word]

theorem tokens?_word {word read : List Char} (each : ∀ c ∈ word, isWordChar c = true)
    (apart : StartsApart rest) :
    tokens? (.word read) (word ++ rest) =
      (tokens? .between rest).map (.word (read.reverse ++ word) :: ·) := by
  induction word generalizing read with
  | nil => rw [List.nil_append, List.append_nil, tokens?_word_end apart]
  | cons c word ih =>
      have first := each c List.mem_cons_self
      rw [List.cons_append, (tokens?_wordChar first read).2,
        ih fun d member => each d (List.mem_cons_of_mem _ member)]
      simp

/-- Characters that a string goes on with. -/
def ContinuesQuoted (quote : Char) (body : List Char) : Prop :=
  ∀ read rest, tokens? (.quoted quote read) (body ++ rest) =
    tokens? (.quoted quote (body.reverse ++ read)) rest

theorem ContinuesQuoted.append {quote : Char} {a b : List Char} (first : ContinuesQuoted quote a)
    (second : ContinuesQuoted quote b) : ContinuesQuoted quote (a ++ b) := by
  intro read rest
  rw [List.append_assoc, first, second, List.reverse_append, List.append_assoc]

theorem ContinuesQuoted.flatMap {quote : Char} {f : Char → List Char} {body : List Char}
    (each : ∀ c ∈ body, ContinuesQuoted quote (f c)) : ContinuesQuoted quote (body.flatMap f) := by
  induction body with
  | nil => exact fun read rest => rfl
  | cons c body ih =>
      rw [List.flatMap_cons]
      have later := ih fun d member => each d (List.mem_cons_of_mem _ member)
      exact (each c List.mem_cons_self).append later

theorem continuesQuoted_char {quote c : Char} (other : c ≠ quote) (backslash : c ≠ '\\')
    (inLine : ¬ (c = '\n' ∨ c = '\r')) : ContinuesQuoted quote [c] := by
  intro read rest
  rw [List.singleton_append, tokens?, if_neg other, if_neg backslash, if_neg inLine]
  rfl

theorem continuesQuoted_escape {quote c : Char} (other : '\\' ≠ quote) :
    ContinuesQuoted quote ['\\', c] := by
  intro read rest
  rw [List.cons_append, tokens?, if_neg other, if_pos rfl]
  rfl

end Scanning

/-- A text that is cut into the same tokens wherever it stands, if a word may end behind it. -/
def Scans (text : List Char) (tokens : List Token) : Prop :=
  ∀ rest, StartsApart rest →
    tokens? .between (text ++ rest) = (tokens? .between rest).map (tokens ++ ·)

/-- A text that is cut into the same tokens wherever it stands, whatever is behind it. -/
def Cuts (text : List Char) (tokens : List Token) : Prop :=
  ∀ rest, tokens? .between (text ++ rest) = (tokens? .between rest).map (tokens ++ ·)

section Cutting

variable {a b : List Char} {P Q : List Token}

theorem Cuts.blank : Cuts [' '] [] := fun rest => by
  rw [List.singleton_append, tokens?_blank]
  simp

theorem Cuts.sign {c : Char} (sign : isSign c = true) : Cuts [c] [.sign c] := fun rest => by
  rw [List.singleton_append, tokens?_sign sign]
  rfl

theorem Cuts.toScans (cut : Cuts a P) : Scans a P := fun rest _ => cut rest

theorem Cuts.append (first : Cuts a P) (second : Cuts b Q) : Cuts (a ++ b) (P ++ Q) :=
  fun rest => by
    rw [List.append_assoc, first, second, Option.map_map]
    simp [Function.comp_def]

theorem Scans.nil : Scans [] [] := fun rest _ => by simp

theorem Scans.word {text : List Char} (some : text ≠ [])
    (each : ∀ c ∈ text, isWordChar c = true) : Scans text [.word text] := by
  intro rest apart
  cases text with
  | nil => exact absurd rfl some
  | cons c text =>
      rw [List.cons_append, (tokens?_wordChar (each c List.mem_cons_self) []).1,
        tokens?_word (fun d member => each d (List.mem_cons_of_mem _ member)) apart]
      rfl

theorem Scans.quoted {quote : Char} {body : List Char} (isQuote : isQuote quote = true)
    (goesOn : ContinuesQuoted quote body) :
    Scans (quote :: (body ++ [quote])) [.word (quote :: (body ++ [quote]))] := by
  intro rest _
  have other : quote ≠ ' ' ∧ ¬ isSign quote = true := by
    simp only [TypeText.isQuote, Bool.or_eq_true, beq_iff_eq] at isQuote
    rcases isQuote with rfl | rfl <;> decide
  rw [List.cons_append, tokens?, if_neg other.1, if_neg other.2, if_pos isQuote,
    List.append_assoc, goesOn, List.singleton_append, tokens?, if_pos rfl]
  simp

theorem Scans.append (first : Scans a P) (apart : StartsApart b) (second : Scans b Q) :
    Scans (a ++ b) (P ++ Q) := fun rest restApart => by
  rw [List.append_assoc, first _ (apart.append restApart), second _ restApart, Option.map_map]
  simp [Function.comp_def]

/-- What separates ends a word in front of it. -/
theorem Scans.cuts (first : Scans a P) (apart : b ≠ [] ∧ StartsApart b) (second : Cuts b Q) :
    Cuts (a ++ b) (P ++ Q) := fun rest => by
  obtain ⟨some, starts⟩ := apart
  have startsApart : StartsApart (b ++ rest) := by
    cases b with
    | nil => exact absurd rfl some
    | cons c b => exact starts
  rw [List.append_assoc, first _ startsApart, second, Option.map_map]
  simp [Function.comp_def]

theorem Cuts.scans (first : Cuts a P) (second : Scans b Q) : Scans (a ++ b) (P ++ Q) :=
  fun rest restApart => by
    rw [List.append_assoc, first, second _ restApart, Option.map_map]
    simp [Function.comp_def]

end Cutting

/-! ## Counting -/

section Counting

variable {operator : Char} {count : Int} {rest : List Char}

/-- How many brackets more a text opens than it closes. -/
def balance : List Char → Int
  | [] => 0
  | c :: rest =>
    if TypeExpr.isOpening c then 1 + balance rest
    else if TypeExpr.isClosing c then balance rest - 1
    else balance rest

theorem balance_append (a b : List Char) : balance (a ++ b) = balance a + balance b := by
  induction a with
  | nil => simp [balance]
  | cons c a ih =>
      rw [List.cons_append, balance, balance, ih]
      split
      · omega
      split
      · omega
      · rfl

theorem balance_of_bracketless {text : List Char} (plain : ∀ c ∈ text, IsBracketless c) :
    balance text = 0 := by
  induction text with
  | nil => rfl
  | cons c text ih =>
      obtain ⟨opening, closing⟩ := plain c List.mem_cons_self
      simp [balance, opening, closing, ih fun d member => plain d (List.mem_cons_of_mem _ member)]

/-- What is found behind a text is found from in front of it, if the count is told. -/
theorem hasTopLevelFrom_append {text : List Char}
    (found : hasTopLevelFrom operator (count + balance text) rest = true) :
    hasTopLevelFrom operator count (text ++ rest) = true := by
  induction text generalizing count with
  | nil => simpa [balance] using found
  | cons c text ih =>
      rw [balance] at found
      rw [List.cons_append, hasTopLevelFrom]
      split at found
      · rename_i opening
        rw [if_pos opening]
        exact ih (by rwa [Int.add_assoc])
      rename_i notOpening
      rw [if_neg notOpening]
      split at found
      · rename_i closing
        rw [if_pos closing]
        refine ih ?_
        have same : count - 1 + balance text = count + (balance text - 1) := by omega
        rwa [same]
      · rename_i notClosing
        rw [if_neg notClosing, ih found, Bool.or_true]

theorem hasTopLevelFrom_opening {c : Char} (opening : TypeExpr.isOpening c = true) :
    hasTopLevelFrom operator count (c :: rest) = hasTopLevelFrom operator (count + 1) rest := by
  rw [hasTopLevelFrom, if_pos opening]

theorem hasTopLevelFrom_closing {c : Char} (notOpening : TypeExpr.isOpening c = false)
    (closing : TypeExpr.isClosing c = true) :
    hasTopLevelFrom operator count (c :: rest) = hasTopLevelFrom operator (count - 1) rest := by
  rw [hasTopLevelFrom, if_neg (by simp [notOpening]), if_pos closing]

theorem counts_opening {c : Char} (opening : isOpening c = true) :
    TypeExpr.isOpening c = true ∧ isSign c = true := by
  simp only [isOpening, Bool.or_eq_true, beq_iff_eq] at opening
  rcases opening with (rfl | rfl) | rfl <;> decide

theorem counts_closing {c : Char} (closing : isClosing c = true) :
    TypeExpr.isOpening c = false ∧ TypeExpr.isClosing c = true := by
  simp only [isClosing, Bool.or_eq_true, beq_iff_eq] at closing
  rcases closing with (rfl | rfl) | rfl <;> decide

end Counting

/-! ## Texts inside texts -/

/-- What the count of open brackets has to do with the pieces of a text. -/
structure Counted (text : List Char) (pieces : List Piece) : Prop where
  balanced : ∀ operator count rest, hasTopLevelFrom operator count rest = true →
    hasTopLevelFrom operator count (text ++ rest) = true
  found : ∀ c : Connective, .sign c.sign ∈ pieces →
    ∀ rest, hasTopLevelFrom c.sign 0 (text ++ rest) = true

theorem Counted.append {a b : List Char} {P Q : List Piece} (first : Counted a P)
    (second : Counted b Q) : Counted (a ++ b) (P ++ Q) where
  balanced := fun operator count rest found => by
    rw [List.append_assoc]
    exact first.balanced _ _ _ (second.balanced _ _ _ found)
  found := fun c member rest => by
    rw [List.append_assoc]
    rcases List.mem_append.mp member with here | there
    · exact first.found c here _
    · exact first.balanced _ _ _ (second.found c there rest)

theorem Counted.level {text : List Char} {pieces : List Piece} (level : balance text = 0)
    (none : ∀ c : Connective, .sign c.sign ∉ pieces) : Counted text pieces where
  balanced := fun _ _ _ found => hasTopLevelFrom_append (by rwa [level, Int.add_zero])
  found := fun c member => absurd member (none c)

theorem Counted.plain {text : List Char} {pieces : List Piece}
    (plain : ∀ c ∈ text, IsBracketless c) (none : ∀ c : Connective, .sign c.sign ∉ pieces) :
    Counted text pieces :=
  .level (balance_of_bracketless plain) none

/-- A text that is read as the same pieces wherever it stands. -/
structure Reads (text : List Char) (pieces : List Piece) : Prop extends Counted text pieces where
  scanned : ∃ tokens, Scans text tokens ∧
    ∀ s : Stand, tokens.foldlM take? s = some ⟨s.frames, s.pieces ++ pieces⟩

/-- A text between two others, which ends the one and lets the other start. -/
structure Separates (text : List Char) (pieces : List Piece) : Prop
    extends Counted text pieces where
  apart : text ≠ [] ∧ StartsApart text
  scanned : ∃ tokens, Cuts text tokens ∧
    ∀ s : Stand, tokens.foldlM take? s = some ⟨s.frames, s.pieces ++ pieces⟩

namespace Separates

theorem blank : Separates [' '] [] where
  toCounted := .plain (by decide) fun c => List.not_mem_nil
  apart := ⟨by simp, Or.inl rfl⟩
  scanned := ⟨[], .blank, fun s => by simp⟩

/-- A sign that is no bracket and no connective. -/
theorem sign {c : Char} (isSign : isSign c = true) (opening : isOpening c = false)
    (closing : isClosing c = false) (plain : IsBracketless c)
    (other : ∀ d : Connective, d.sign ≠ c) :
    Separates [c] [.sign c] where
  toCounted := .plain (by simpa using plain) fun d => by simpa using other d
  apart := ⟨by simp, Or.inr isSign⟩
  scanned := ⟨[.sign c], .sign isSign, fun s => by simp [take?, opening, closing]⟩

theorem append {a b : List Char} {P Q : List Piece} (first : Separates a P)
    (second : Separates b Q) : Separates (a ++ b) (P ++ Q) where
  toCounted := first.toCounted.append second.toCounted
  apart := ⟨by simp [first.apart.1], first.apart.2.append second.apart.2⟩
  scanned := by
    obtain ⟨before, readsBefore, takesBefore⟩ := first.scanned
    obtain ⟨behind, readsBehind, takesBehind⟩ := second.scanned
    refine ⟨before ++ behind, readsBefore.append readsBehind, fun s => ?_⟩
    rw [List.foldlM_append, takesBefore]
    simp [takesBehind]

/-- A connective between blanks, where it is counted. -/
theorem connective (c : Connective) : Separates [' ', c.sign, ' '] [.sign c.sign] where
  balanced := fun operator count rest found => by
    have plain : ∀ d ∈ [' ', c.sign, ' '], IsBracketless d := by cases c <;> decide
    exact hasTopLevelFrom_append (by rwa [balance_of_bracketless plain, Int.add_zero])
  found := fun d member rest => by
    have same : d.sign = c.sign := by simpa using member
    rw [same]
    have blank : IsBracketless ' ' := by decide
    simp [hasTopLevelFrom, blank.1, blank.2]
  apart := ⟨by simp, Or.inl rfl⟩
  scanned := by
    have isSign : isSign c.sign = true ∧ isOpening c.sign = false ∧ isClosing c.sign = false := by
      cases c <;> decide
    have cut : Cuts ([' '] ++ ([c.sign] ++ [' '])) ([] ++ ([.sign c.sign] ++ [])) :=
      Cuts.blank.append ((Cuts.sign isSign.1).append .blank)
    exact ⟨[.sign c.sign], cut, fun s => by simp [take?, isSign.2.1, isSign.2.2]⟩

end Separates

namespace Reads

theorem nil : Reads [] [] where
  toCounted := .plain (fun c member => absurd member List.not_mem_nil) fun c => List.not_mem_nil
  scanned := ⟨[], .nil, fun s => by simp⟩

/-- One word is one leaf. -/
theorem word {text : List Char} (some : text ≠ []) (each : ∀ c ∈ text, isWordChar c = true) :
    Reads text [.tree (.leaf (String.ofList text))] where
  toCounted := .plain
    (fun c member => isBracketless_of_not_mem (isWordChar_not_mem (each c member)))
    fun c => by simp
  scanned := ⟨[.word text], .word some each, fun s => by simp [take?]⟩

/-- A string is one leaf; whatever brackets are in it, as many have to be closed as are opened. -/
theorem quoted {quote : Char} {body : List Char} (isQuote : isQuote quote = true)
    (goesOn : ContinuesQuoted quote body) (level : balance body = 0) :
    Reads (quote :: (body ++ [quote]))
      [.tree (.leaf (String.ofList (quote :: (body ++ [quote]))))] where
  toCounted := by
    have plainQuote : balance [quote] = 0 := by
      simp only [TypeText.isQuote, Bool.or_eq_true, beq_iff_eq] at isQuote
      rcases isQuote with rfl | rfl <;> decide
    refine .level ?_ fun c => by simp
    rw [← List.singleton_append, balance_append, balance_append, plainQuote, level]
    rfl
  scanned :=
    ⟨[.word (quote :: (body ++ [quote]))], .quoted isQuote goesOn, fun s => by simp [take?]⟩

/-- Two texts with something that separates them in between. -/
theorem join {a between b : List Char} {P S Q : List Piece} (first : Reads a P)
    (separates : Separates between S) (second : Reads b Q) :
    Reads (a ++ (between ++ b)) (P ++ (S ++ Q)) where
  toCounted := first.toCounted.append (separates.toCounted.append second.toCounted)
  scanned := by
    obtain ⟨before, readsBefore, takesBefore⟩ := first.scanned
    obtain ⟨signs, readsSigns, takesSigns⟩ := separates.scanned
    obtain ⟨behind, readsBehind, takesBehind⟩ := second.scanned
    have cut : Scans (a ++ between ++ b) (before ++ signs ++ behind) :=
      (readsBefore.cuts separates.apart readsSigns).scans readsBehind
    rw [List.append_assoc, List.append_assoc] at cut
    refine ⟨before ++ (signs ++ behind), cut, fun s => ?_⟩
    rw [List.foldlM_append, takesBefore]
    simp [takesSigns, takesBehind]

/-- Two texts of which the second ends a word in front of it. -/
theorem append {a b : List Char} {P Q : List Piece} (first : Reads a P) (apart : StartsApart b)
    (second : Reads b Q) : Reads (a ++ b) (P ++ Q) where
  toCounted := first.toCounted.append second.toCounted
  scanned := by
    obtain ⟨before, readsBefore, takesBefore⟩ := first.scanned
    obtain ⟨behind, readsBehind, takesBehind⟩ := second.scanned
    refine ⟨before ++ behind, readsBefore.append apart readsBehind, fun s => ?_⟩
    rw [List.foldlM_append, takesBefore]
    simp [takesBehind]

/-- Brackets and what stands in them are one piece. -/
theorem enclosed {inner : List Char} {P : List Piece} (reads : Reads inner P)
    (opening closing : Char) (opens : isOpening opening = true) (closes : isClosing closing = true)
    {piece : Piece} (whole : enclosed? opening closing P = some piece)
    (noSign : ∀ c, piece ≠ .sign c) :
    Reads (opening :: (inner ++ [closing])) [piece] where
  balanced := fun operator count rest found => by
    obtain ⟨counts, -⟩ := counts_opening opens
    obtain ⟨other, countsBack⟩ := counts_closing closes
    have behind : hasTopLevelFrom operator (count + 1) (closing :: rest) = true := by
      rw [hasTopLevelFrom_closing other countsBack, Int.add_sub_cancel]
      exact found
    rw [List.cons_append, List.append_assoc, hasTopLevelFrom_opening counts]
    exact reads.balanced _ _ _ behind
  found := fun c member => by
    rw [List.mem_singleton] at member
    exact absurd member.symm (noSign _)
  scanned := by
    obtain ⟨tokens, readsInner, takesInner⟩ := reads.scanned
    obtain ⟨-, signOpens⟩ := counts_opening opens
    have signCloses : isSign closing = true := by simp [isSign, closes]
    have notOpening : isOpening closing = false := by
      simp only [isClosing, Bool.or_eq_true, beq_iff_eq] at closes
      rcases closes with (rfl | rfl) | rfl <;> decide
    have inside : Scans (inner ++ [closing]) (tokens ++ [.sign closing]) :=
      readsInner.append (Or.inr signCloses) (Cuts.sign signCloses).toScans
    refine ⟨.sign opening :: (tokens ++ [.sign closing]), (Cuts.sign signOpens).scans inside,
      fun s => ?_⟩
    rw [List.foldlM_cons, take?, if_pos opens]
    simp [List.foldlM_append, takesInner, take?, notOpening, closes, whole]

end Reads

end ClientForge.TypeText
