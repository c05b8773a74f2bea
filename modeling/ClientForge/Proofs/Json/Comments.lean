/-
# ClientForge.Proofs.Json.Comments -- texts without their comments

A file is read with its line ends unified, and then its comments are dropped
(`withoutComments`).  Nothing of this touches a token (`withoutComments_token`): outside of
strings no token holds a quote or a slash, and a string is kept up to the quote that closes it.
In front of a token a gap shrinks to its blanks (`Gap.dropped`), for a comment begins at its first
slash and ends where the grammar says it does.  So of a text with comments the same tokens are
left, with blanks between them (`laid_withoutComments`).
-/
import ClientForge.Proofs.Json.Grammar
import ClientForge.Text.Utf8

namespace ClientForge

set_option autoImplicit false

/-! ## Line ends -/

namespace Text

theorem unifyLines_cons {c : Char} (other : c ≠ '\r') (s : List Char) :
    unifyLines (c :: s) = c :: unifyLines s := by
  rw [unifyLines] <;> simp [other]

/-- A return and a line feed behind it are one line end. -/
theorem unifyLines_return (s : List Char) :
    unifyLines ('\r' :: s) =
      if s.head? = some '\n' then unifyLines s else '\n' :: unifyLines s := by
  cases s with
  | nil => rfl
  | cons c rest =>
      by_cases feed : c = '\n'
      · subst feed
        rw [unifyLines, unifyLines_cons (by decide)]
        rfl
      · rw [if_neg (by simpa using feed), unifyLines]
        simpa using feed

theorem unifyLines_append {w : List Char} (none : ∀ c ∈ w, c ≠ '\r') (s : List Char) :
    unifyLines (w ++ s) = w ++ unifyLines s := by
  induction w with
  | nil => rfl
  | cons c rest ih =>
      obtain ⟨first, later⟩ := List.forall_mem_cons.mp none
      rw [List.cons_append, unifyLines_cons first, ih later, List.cons_append]

/-- A line end does not become anything but a line end. -/
theorem head?_of_unifyLines {s : List Char} {c : Char} (other : c ≠ '\n')
    (first : (unifyLines s).head? = some c) : s.head? = some c := by
  cases s with
  | nil => cases first
  | cons d rest =>
      by_cases ends : d = '\r'
      · subst ends
        rw [unifyLines_return] at first
        split at first
        · rename_i feed
          cases rest with
          | nil => cases feed
          | cons e rest =>
              obtain rfl := Option.some.inj feed
              rw [unifyLines_cons (by decide)] at first
              exact absurd (Option.some.inj first).symm other
        · exact absurd (Option.some.inj first).symm other
      · rw [unifyLines_cons ends] at first
        exact first

end Text

namespace Json

open Text (unifyLines unifyLines_cons unifyLines_return unifyLines_append)
open Piece (Spelled Spell)

/-- What is left of the text of a file, without its comments. -/
def withoutComments (s : List Char) : List Char := dropComments .code (unifyLines s)

/-! ## Tokens -/

theorem withoutComments_keep {w : List Char}
    (plain : ∀ c ∈ w, c ≠ '"' ∧ c ≠ '/' ∧ c ≠ '\r') (s : List Char) :
    withoutComments (w ++ s) = w ++ withoutComments s := by
  unfold withoutComments
  rw [unifyLines_append fun c member => (plain c member).2.2,
    dropComments_keep fun c member => ⟨(plain c member).1, (plain c member).2.1⟩]

theorem isWordChar_of_hexValue? {c : Char} {d : Nat} (digit : Text.hexValue? c = some d) :
    IsWordChar c := by
  refine Or.inl (isAlphanum_iff.mpr ?_)
  have range {low high : Char} (within : low ≤ c ∧ c ≤ high) :
      low.val ≤ c.val ∧ c.val ≤ high.val := within
  unfold Text.hexValue? at digit
  split at digit
  · exact Or.inr (range ‹_›)
  split at digit
  · obtain ⟨low, high⟩ := range (by assumption : 'a' ≤ c ∧ c ≤ 'f')
    exact Or.inl (Or.inr ⟨low, UInt32.le_trans high (by decide)⟩)
  split at digit
  · obtain ⟨low, high⟩ := range (by assumption : 'A' ≤ c ∧ c ≤ 'F')
    exact Or.inl (Or.inl ⟨low, UInt32.le_trans high (by decide)⟩)
  · cases digit

/-- The letters and marks of escapes. -/
theorem mem_of_simpleEscape? {e c : Char} (escape : simpleEscape? e = some c) :
    e ∈ ['"', '\\', '/', 'b', 'f', 'n', 'r', 't'] := by
  by_contra other
  simp only [List.mem_cons, List.not_mem_nil, or_false, not_or] at other
  simp [simpleEscape?, other] at escape

/-- A piece of a string does not end the string, nor a line. -/
theorem Piece.Spelled.continues {p : Piece} {text : List Char} (spelled : p.Spelled text) :
    (∀ c ∈ text, c ≠ '\r') ∧ ∀ s, closesString (text ++ s) = closesString s ∧
      dropComments .string (text ++ s) = text ++ dropComments .string s := by
  cases spelled with
  | raw printable noQuote noSlash =>
      rename_i c
      have noReturn : c ≠ '\r' := by
        rintro rfl
        exact absurd printable (by decide)
      exact ⟨by simpa using noReturn,
        fun s => by simp [closesString, dropComments, noQuote, noSlash]⟩
  | escape escape =>
      rename_i e c
      have letter := mem_of_simpleEscape? escape
      have noReturn : e ≠ '\r' := by
        rintro rfl
        exact absurd letter (by decide)
      exact ⟨by simpa using noReturn, fun s => by simp [closesString, dropComments]⟩
  | unit first second third fourth =>
      rename_i c₁ c₂ c₃ c₄ _ _ _ _
      have plain {c : Char} {d : Nat} (digit : Text.hexValue? c = some d) :
          c ≠ '\r' ∧ c ≠ '"' ∧ c ≠ '\\' := by
        have word := isWordChar_of_hexValue? digit
        exact ⟨word.ne (by decide), word.ne (by decide), word.ne (by decide)⟩
      refine ⟨by simp [plain first, plain second, plain third, plain fourth], fun s => ?_⟩
      simp [closesString, dropComments, plain first, plain second, plain third, plain fourth]

theorem Piece.Spell.continues {ps : List Piece} {body : List Char} (spell : Spell ps body) :
    (∀ c ∈ body, c ≠ '\r') ∧ ∀ s, closesString (body ++ s) = closesString s ∧
      dropComments .string (body ++ s) = body ++ dropComments .string s := by
  induction spell with
  | nil => exact ⟨by simp, fun s => ⟨rfl, rfl⟩⟩
  | cons spelled rest ih =>
      obtain ⟨first, here⟩ := spelled.continues
      obtain ⟨later, there⟩ := ih
      refine ⟨List.forall_mem_append.mpr ⟨first, later⟩, fun s => ?_⟩
      rw [List.append_assoc, (here _).1, (here _).2, (there _).1, (there _).2, List.append_assoc]
      exact ⟨rfl, rfl⟩

/-- A token stays as it is. -/
theorem withoutComments_token {t : Token} (sound : t.Sound) (s : List Char) :
    withoutComments (t.text ++ s) = t.text ++ withoutComments s := by
  cases sound with
  | sign is =>
      rename_i c
      have plain : ∀ c ∈ signs, c ≠ '"' ∧ c ≠ '/' ∧ c ≠ '\r' := by decide
      exact withoutComments_keep (w := [c]) (by simpa using plain c is) s
  | word _ each =>
      exact withoutComments_keep (fun c member => ⟨(each c member).ne (by decide),
        (each c member).ne (by decide), (each c member).ne (by decide)⟩) s
  | quoted spell =>
      rename_i body ps
      obtain ⟨noReturn, goesOn⟩ := spell.continues
      have closes : closesString (body ++ '"' :: unifyLines s) = true :=
        (goesOn ('"' :: unifyLines s)).1
      have inLine : ∀ c ∈ Token.text (.quoted body), c ≠ '\r' := by
        simp only [Token.text, List.forall_mem_cons, List.forall_mem_append]
        exact ⟨by decide, noReturn, by decide⟩
      have unified : unifyLines (Token.text (.quoted body) ++ s) =
          '"' :: (body ++ '"' :: unifyLines s) := by
        rw [unifyLines_append inLine]
        simp [Token.text]
      unfold withoutComments
      rw [unified]
      simp [dropComments, closes, (goesOn _).2, Token.text]

/-! ## Gaps -/

theorem isSpace_cases {c : Char} (space : isSpace c = true) :
    c = ' ' ∨ c = '\t' ∨ c = '\n' ∨ c = '\r' := by
  simpa [isSpace, or_assoc] using space

/-- A line comment is dropped up to the end of its line. -/
theorem dropComments_line {body : List Char} (inLine : ∀ d ∈ body, ¬ IsBreak d) (s : List Char) :
    dropComments .line (body ++ s) = dropComments .line s := by
  induction body with
  | nil => rfl
  | cons d rest ih =>
      obtain ⟨first, later⟩ := List.forall_mem_cons.mp inLine
      have noFeed : d ≠ '\n' := fun same => first (Or.inl same)
      rw [List.cons_append, dropComments, if_neg noFeed, ih later]

/-- A line end behind a line comment is kept. -/
theorem dropComments_break {c : Char} (isBreak : IsBreak c) (s : List Char) :
    ∃ b, Blank b ∧ dropComments .line (unifyLines (c :: s)) = b ++ withoutComments s := by
  have feed : dropComments .line ('\n' :: unifyLines s) = '\n' :: withoutComments s := by
    rw [dropComments, if_pos rfl, withoutComments]
  have blank : Blank ['\n'] := by decide
  rcases isBreak with rfl | rfl
  · exact ⟨['\n'], blank, by rw [unifyLines_cons (by decide), feed]; rfl⟩
  · rw [unifyLines_return]
    split
    · rename_i first
      cases s with
      | nil => cases first
      | cons d rest =>
          -- the line feed belongs to the return, and is what is left of both
          obtain rfl := Option.some.inj first
          refine ⟨[], by decide, ?_⟩
          rw [withoutComments, unifyLines_cons (by decide), dropComments, if_pos rfl]
          simp [dropComments]
    · exact ⟨['\n'], blank, feed⟩

/-- A block comment is dropped up to the first end that it has. -/
theorem dropComments_block {body : List Char} (opens : ¬ ['*', '/'] <:+: body) (s : List Char) :
    closesBlock (unifyLines (body ++ '*' :: '/' :: s)) = true ∧
      dropComments .block (unifyLines (body ++ '*' :: '/' :: s)) = withoutComments s := by
  induction body with
  | nil =>
      rw [List.nil_append, unifyLines_cons (by decide), unifyLines_cons (by decide)]
      exact ⟨rfl, rfl⟩
  | cons c rest ih =>
      obtain ⟨closes, dropped⟩ :=
        ih fun inner => opens (inner.trans (List.suffix_cons c rest).isInfix)
      rw [List.cons_append]
      by_cases ends : c = '\r'
      · subst ends
        rw [unifyLines_return]
        split
        · exact ⟨closes, dropped⟩
        · exact ⟨by simpa [closesBlock] using closes, by simpa [dropComments] using dropped⟩
      · rw [unifyLines_cons ends]
        have apart : c = '*' → (unifyLines (rest ++ '*' :: '/' :: s)).head? ≠ some '/' := by
          rintro rfl slash
          have first := Text.head?_of_unifyLines (by decide) slash
          cases rest with
          | nil => cases first
          | cons d rest =>
              obtain rfl := Option.some.inj first
              exact opens (List.prefix_append ['*', '/'] rest).isInfix
        revert closes dropped apart
        generalize unifyLines (rest ++ '*' :: '/' :: s) = next
        intro closes dropped apart
        cases next with
        | nil => cases closes
        | cons d next =>
            have noEnd : ¬ (c = '*' ∧ d = '/') := fun both =>
              apart both.1 (congrArg some both.2)
            rw [closesBlock, dropComments]
            · exact ⟨closes, dropped⟩
            · simpa using noEnd
            · simpa using noEnd

/-- In front of whatever follows, a gap shrinks to its blanks. -/
theorem Gap.dropped {g : List Char} (gap : Gap g) (s : List Char) :
    ∃ b, Blank b ∧ withoutComments (g ++ s) = b ++ withoutComments s := by
  have kept {c : Char} (space : isSpace c = true) (noReturn : c ≠ '\r') (s : List Char) :
      withoutComments (c :: s) = c :: withoutComments s := by
    refine withoutComments_keep (w := [c]) ?_ s
    rcases isSpace_cases space with rfl | rfl | rfl | rfl <;> simp
    exact noReturn rfl
  induction gap with
  | nil => exact ⟨[], by decide, rfl⟩
  | blank space gap ih =>
      rename_i c g
      obtain ⟨b, blank, same⟩ := ih
      by_cases ends : c = '\r'
      · subst ends
        rw [List.cons_append, withoutComments, unifyLines_return]
        split
        · exact ⟨b, blank, same⟩
        · refine ⟨'\n' :: b, List.forall_mem_cons.mpr ⟨by decide, blank⟩, ?_⟩
          rw [List.cons_append, ← same]
          simp [dropComments, withoutComments]
      · refine ⟨c :: b, List.forall_mem_cons.mpr ⟨space, blank⟩, ?_⟩
        rw [List.cons_append, kept space ends, same, List.cons_append]
  | line inLine isBreak gap ih =>
      rename_i body g c
      obtain ⟨b, blank, same⟩ := ih
      obtain ⟨b', blank', same'⟩ := dropComments_break isBreak (g ++ s)
      have noReturn : ∀ d ∈ '/' :: '/' :: body, d ≠ '\r' :=
        List.forall_mem_cons.mpr ⟨by decide, List.forall_mem_cons.mpr ⟨by decide,
          fun d member same => inLine d member (Or.inr same)⟩⟩
      have unified := unifyLines_append noReturn (c :: (g ++ s))
      refine ⟨b' ++ b, List.forall_mem_append.mpr ⟨blank', blank⟩, ?_⟩
      have shape : '/' :: '/' :: (body ++ c :: g) ++ s =
          '/' :: '/' :: body ++ c :: (g ++ s) := by simp
      rw [shape, withoutComments, unified, List.cons_append, List.cons_append, dropComments,
        dropComments_line inLine, same', same, List.append_assoc]
  | block opens gap ih =>
      rename_i body g
      obtain ⟨b, blank, same⟩ := ih
      obtain ⟨closes, dropped⟩ := dropComments_block opens (g ++ s)
      refine ⟨b, blank, ?_⟩
      have shape : '/' :: '*' :: (body ++ '*' :: '/' :: g) ++ s =
          '/' :: '*' :: (body ++ '*' :: '/' :: (g ++ s)) := by simp
      rw [shape, withoutComments, unifyLines_cons (by decide), unifyLines_cons (by decide),
        dropComments, if_pos closes, dropped, same]

theorem Ending.dropped {g : List Char} (ending : Ending g) : Blank (withoutComments g) := by
  have none : withoutComments [] = [] := rfl
  cases ending with
  | gap gap =>
      obtain ⟨b, blank, same⟩ := gap.dropped []
      rw [List.append_nil, none, List.append_nil] at same
      rwa [same]
  | line gap inLine =>
      rename_i g body
      obtain ⟨b, blank, same⟩ := gap.dropped ('/' :: '/' :: body)
      have unified := unifyLines_append (w := '/' :: '/' :: body)
        (List.forall_mem_cons.mpr ⟨by decide, List.forall_mem_cons.mpr ⟨by decide,
          fun d member same => inLine d member (Or.inr same)⟩⟩) []
      have rest : withoutComments ('/' :: '/' :: body) = [] := by
        rw [List.append_nil] at unified
        rw [withoutComments, unified, List.cons_append, List.cons_append, dropComments,
          dropComments_line inLine]
        rfl
      rw [same, rest, List.append_nil]
      exact blank

/-- **The tokens are left, with blanks between them.** -/
theorem laid_withoutComments {ts : List Token} {text : List Char} (laid : Laid Gap Ending ts text)
    (sound : ∀ t ∈ ts, t.Sound) : Laid Blank Blank ts (withoutComments text) := by
  induction laid with
  | nil ending => exact .nil ending.dropped
  | cons gap laid ih =>
      obtain ⟨first, later⟩ := List.forall_mem_cons.mp sound
      obtain ⟨b, blank, same⟩ := gap.dropped _
      rw [same, withoutComments_token first]
      exact .cons blank (ih later)

end Json

end ClientForge
