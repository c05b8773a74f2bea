/-
# ClientForge.Proofs.Json.Commas -- texts without commas in front of closing brackets

The pass that drops trailing commas does not look for strings, so it changes strings, too: a
comma with only blanks between it and a closing bracket is gone wherever it stands.  What it leaves
is a text of the plain grammar nevertheless.  A quote is neither blank nor a bracket, so no comma
is dropped for the sake of a bracket on the other side of one, and the tokens can be told one by
one (`dropCommas`, `laid_dropTrailingCommas`).

What is written then is alike (`Writes.plain`): the same but for strings that hold a closing
bracket before and after.  A string that is changed is such a one, for the bracket that a comma is
dropped for is kept.  So a key without a closing bracket has what it had, and what counted as given
still does (`Alike.get?`, `Alike.truthy`).
-/
import ClientForge.Proofs.Json.Comments

namespace ClientForge.Json

set_option autoImplicit false

open Text (isBlank)
open Piece (Spelled Spell)

/-! ## Characters -/

theorem isBlank_of_isSpace {c : Char} (space : isSpace c = true) : isBlank c = true := by
  rcases isSpace_cases space with rfl | rfl | rfl | rfl <;> decide

theorem IsWordChar.range {c : Char} (word : IsWordChar c) : 0x2b ≤ c.toNat ∧ c.toNat ≤ 0x7a := by
  have same : c.toNat = c.val.toNat := rfl
  rcases word with letter | rfl | rfl | rfl
  · simp only [isAlphanum_iff, UInt32.le_iff_toNat_le] at letter
    rcases letter with (⟨low, high⟩ | ⟨low, high⟩) | ⟨low, high⟩
    · exact ⟨same ▸ Nat.le_trans (by decide) low, same ▸ Nat.le_trans high (by decide)⟩
    · exact ⟨same ▸ Nat.le_trans (by decide) low, same ▸ Nat.le_trans high (by decide)⟩
    · exact ⟨same ▸ Nat.le_trans (by decide) low, same ▸ Nat.le_trans high (by decide)⟩
  all_goals decide

theorem isBlank_of_isWordChar {c : Char} (word : IsWordChar c) : isBlank c = false := by
  have range := word.range
  simp only [isBlank, Text.blankRanges, Text.inRanges]
  rw [if_neg (by omega), if_neg (by omega), if_pos (by omega)]
  simp
  omega

theorem closesNext_blank {c : Char} (blank : isBlank c = true) (s : List Char) :
    closesNext (c :: s) = closesNext s := by
  simp [closesNext, blank]

theorem closesNext_ink {c : Char} (ink : isBlank c = false) (s : List Char) :
    closesNext (c :: s) = (c == '\x7d' || c == ']') := by
  simp [closesNext, ink]

theorem closesNext_gap {b : List Char} (blank : Blank b) (s : List Char) :
    closesNext (b ++ s) = closesNext s := by
  induction b with
  | nil => rfl
  | cons c rest ih =>
      obtain ⟨first, later⟩ := List.forall_mem_cons.mp blank
      rw [List.cons_append, closesNext_blank (isBlank_of_isSpace first), ih later]

/-- Nothing is closed across a quote. -/
theorem closesNext_quote (body s : List Char) :
    closesNext (body ++ '"' :: s) = closesNext body := by
  induction body with
  | nil => exact closesNext_ink (by decide) s
  | cons c rest ih =>
      cases blank : isBlank c with
      | true => rw [List.cons_append, closesNext_blank blank, closesNext_blank blank, ih]
      | false => rw [List.cons_append, closesNext_ink blank, closesNext_ink blank]

theorem dropTrailingCommas_keep {w : List Char} (none : ∀ c ∈ w, c ≠ ',') (s : List Char) :
    dropTrailingCommas (w ++ s) = w ++ dropTrailingCommas s := by
  induction w with
  | nil => rfl
  | cons c rest ih =>
      obtain ⟨first, later⟩ := List.forall_mem_cons.mp none
      rw [List.cons_append, dropTrailingCommas, if_neg fun both => first both.1, ih later,
        List.cons_append]

theorem dropTrailingCommas_quote (body s : List Char) :
    dropTrailingCommas (body ++ '"' :: s) =
      dropTrailingCommas body ++ '"' :: dropTrailingCommas s := by
  induction body with
  | nil => exact dropTrailingCommas_keep (w := ['"']) (by decide) s
  | cons c rest ih =>
      rw [List.cons_append, dropTrailingCommas, dropTrailingCommas, closesNext_quote, ih]
      split <;> rfl

/-! ## Tokens -/

/-- A closing bracket comes next. -/
def closesFirst (ts : List Token) : Bool := (ts.head?.map Token.closes).getD false

/-- The tokens that are left. -/
def dropCommas : List Token → List Token
  | [] => []
  | .sign c :: rest =>
    if c = ',' ∧ closesFirst rest then dropCommas rest else .sign c :: dropCommas rest
  | .word text :: rest => .word text :: dropCommas rest
  | .quoted body :: rest => .quoted (dropTrailingCommas body) :: dropCommas rest

theorem closesNext_token {t : Token} (sound : t.Sound) (s : List Char) :
    closesNext (t.text ++ s) = t.closes := by
  cases sound with
  | sign is =>
      rename_i c
      have ink : ∀ c ∈ signs, isBlank c = false := by decide
      exact closesNext_ink (ink c is) s
  | word some each =>
      rename_i text
      obtain ⟨c, rest, rfl⟩ := List.exists_cons_of_ne_nil some
      have word := each c List.mem_cons_self
      have other : (c == '\x7d' || c == ']') = false := by
        simp [word.ne (d := '\x7d') (by decide), word.ne (d := ']') (by decide)]
      exact (closesNext_ink (isBlank_of_isWordChar word) _).trans other
  | quoted _ => exact closesNext_ink (by decide) _

theorem closesNext_laid {ts : List Token} {text : List Char} (laid : Laid Blank Blank ts text)
    (sound : ∀ t ∈ ts, t.Sound) : closesNext text = closesFirst ts := by
  cases laid with
  | nil blank =>
      have none := closesNext_gap blank []
      rwa [List.append_nil] at none
  | cons blank laid =>
      rw [closesNext_gap blank, closesNext_token (sound _ List.mem_cons_self)]
      rfl

theorem Laid.behind {ts : List Token} {b text : List Char} (blank : Blank b)
    (laid : Laid Blank Blank ts text) : Laid Blank Blank ts (b ++ text) := by
  cases laid with
  | nil rest => exact .nil (List.forall_mem_append.mpr ⟨blank, rest⟩)
  | cons gap laid =>
      rw [← List.append_assoc]
      exact .cons (List.forall_mem_append.mpr ⟨blank, gap⟩) laid

theorem comma_notBlank {b : List Char} (blank : Blank b) : ∀ c ∈ b, c ≠ ',' := by
  rintro c member rfl
  exact absurd (blank _ member) (by decide)

/-- **The tokens that are left are told one by one.** -/
theorem laid_dropTrailingCommas {ts : List Token} {text : List Char}
    (laid : Laid Blank Blank ts text) (sound : ∀ t ∈ ts, t.Sound) :
    Laid Blank Blank (dropCommas ts) (dropTrailingCommas text) := by
  induction laid with
  | nil blank =>
      have same := dropTrailingCommas_keep (comma_notBlank blank) []
      rw [List.append_nil] at same
      rw [same]
      exact .nil (List.forall_mem_append.mpr ⟨blank, by decide⟩)
  | cons blank laid ih =>
      rename_i t ts g rest
      obtain ⟨first, later⟩ := List.forall_mem_cons.mp sound
      have left := ih later
      rw [dropTrailingCommas_keep (comma_notBlank blank)]
      cases t with
      | sign c =>
          show Laid _ _ _ (g ++ dropTrailingCommas (c :: rest))
          rw [dropTrailingCommas, dropCommas, closesNext_laid laid later]
          split
          · exact left.behind blank
          · exact .cons (t := .sign c) blank left
      | word text =>
          cases first with
          | word _ each =>
              have noComma : ∀ c ∈ text, c ≠ ',' := fun c member =>
                (each c member).ne (by decide)
              rw [Token.text, dropTrailingCommas_keep noComma]
              exact .cons (t := .word text) blank left
      | quoted body =>
          have same : dropTrailingCommas (Token.text (.quoted body) ++ rest) =
              Token.text (.quoted (dropTrailingCommas body)) ++ dropTrailingCommas rest := by
            have shape : Token.text (.quoted body) ++ rest =
                ['"'] ++ (body ++ '"' :: rest) := by simp [Token.text]
            rw [shape, dropTrailingCommas_keep (by decide), dropTrailingCommas_quote]
            simp [Token.text]
          rw [same]
          exact .cons blank left

/-! ## Strings -/

/-- Text with a closing bracket. -/
def Bracketed (s : String) : Prop := '\x7d' ∈ s.toList ∨ ']' ∈ s.toList

instance (s : String) : Decidable (Bracketed s) :=
  inferInstanceAs (Decidable ('\x7d' ∈ s.toList ∨ ']' ∈ s.toList))

/-- Pieces with a closing bracket among them, spelled as it is. -/
def Piece.HasBracket (ps : List Piece) : Prop := ∃ c, (c == '\x7d' || c == ']') ∧ .char c ∈ ps

theorem Piece.mem_join {c : Char} {ps : List Piece} (member : .char c ∈ ps) : c ∈ join ps := by
  induction ps using join.induct with
  | case1 => cases member
  | case2 d rest ih =>
      rw [join]
      rcases List.mem_cons.mp member with same | later
      · cases same
        exact List.mem_cons_self
      · exact List.mem_cons_of_mem _ (ih later)
  | case3 high low rest pair ih =>
      rw [join, if_pos pair]
      exact List.mem_cons_of_mem _ (ih (by simpa using member))
  | case4 high low rest apart ih =>
      rw [join, if_neg apart]
      exact List.mem_cons_of_mem _ (ih (by simpa using member))
  | case5 n rest alone ih =>
      rw [join]
      · exact List.mem_cons_of_mem _ (ih (by simpa using member))
      · exact alone

theorem Piece.HasBracket.bracketed {ps : List Piece} (bracket : HasBracket ps) :
    Bracketed (Piece.string ps) := by
  obtain ⟨c, closes, member⟩ := bracket
  have inside : c ∈ (Piece.string ps).toList := by
    rw [Piece.string, String.toList_ofList]
    exact Piece.mem_join member
  simp only [Bool.or_eq_true, beq_iff_eq] at closes
  rcases closes with rfl | rfl
  · exact Or.inl inside
  · exact Or.inr inside

/-- Where only blanks stand in front of a closing bracket, there is one. -/
theorem Piece.Spell.hasBracket {ps : List Piece} {body : List Char} (spell : Spell ps body)
    (closes : closesNext body = true) : HasBracket ps := by
  induction spell with
  | nil => cases closes
  | cons spelled rest ih =>
      cases spelled with
      | raw =>
          rename_i c _ _ _
          rw [List.singleton_append] at closes
          cases blank : isBlank c with
          | true =>
              rw [closesNext_blank blank] at closes
              obtain ⟨d, bracket, member⟩ := ih closes
              exact ⟨d, bracket, List.mem_cons_of_mem _ member⟩
          | false =>
              rw [closesNext_ink blank] at closes
              exact ⟨c, closes, List.mem_cons_self⟩
      | escape =>
          rw [List.cons_append, closesNext_ink (by decide)] at closes
          cases closes
      | unit =>
          rw [List.cons_append, closesNext_ink (by decide)] at closes
          cases closes

/-- An escape has no comma. -/
theorem Piece.Spelled.comma {p : Piece} {text : List Char} (spelled : p.Spelled text) :
    text = [','] ∨ ∀ c ∈ text, c ≠ ',' := by
  cases spelled with
  | raw =>
      rename_i c _ _ _
      by_cases comma : c = ','
      · exact Or.inl (by rw [comma])
      · exact Or.inr (by simpa using comma)
  | escape escape =>
      rename_i e c
      have letter : e ≠ ',' := by
        rintro rfl
        exact absurd (mem_of_simpleEscape? escape) (by decide)
      exact Or.inr (by simpa using letter)
  | unit first second third fourth =>
      have digit {c : Char} {d : Nat} (value : Text.hexValue? c = some d) : c ≠ ',' :=
        (isWordChar_of_hexValue? value).ne (by decide)
      exact Or.inr (by simp [digit first, digit second, digit third, digit fourth])

/-- A string that loses a comma keeps the bracket behind it. -/
theorem Piece.Spell.dropped {ps : List Piece} {body : List Char} (spell : Spell ps body) :
    ∃ ps', Spell ps' (dropTrailingCommas body) ∧
      (ps' = ps ∨ HasBracket ps ∧ HasBracket ps') := by
  induction spell with
  | nil => exact ⟨[], .nil, Or.inl rfl⟩
  | cons spelled rest ih =>
      rename_i p ps text body
      obtain ⟨ps', left, alike⟩ := ih
      have grown {qs : List Piece} (bracket : HasBracket qs) (q : Piece) : HasBracket (q :: qs) :=
        bracket.imp fun _ both => ⟨both.1, List.mem_cons_of_mem _ both.2⟩
      have kept : (p :: ps') = p :: ps ∨ HasBracket (p :: ps) ∧ HasBracket (p :: ps') :=
        alike.imp (congrArg _) fun both => ⟨grown both.1 p, grown both.2 p⟩
      rcases spelled.comma with rfl | noComma
      · rw [List.singleton_append, dropTrailingCommas]
        split
        · rename_i dropped
          have bracket := rest.hasBracket dropped.2
          refine ⟨ps', left, Or.inr ⟨grown bracket p, ?_⟩⟩
          rcases alike with rfl | ⟨-, bracket'⟩
          · exact bracket
          · exact bracket'
        · exact ⟨p :: ps', .cons spelled left, kept⟩
      · rw [dropTrailingCommas_keep noComma]
        exact ⟨p :: ps', .cons spelled left, kept⟩

/-! ## Values -/

/-- The same but for strings that hold a closing bracket. -/
inductive Alike : Phrase → Phrase → Prop
  | atom (a : Scalar) : Alike (.value (.atom a)) (.value (.atom a))
  | str {s s' : String} : Bracketed s → Bracketed s' → Alike (.value (.str s)) (.value (.str s'))
  | list {vs vs' : List Value} : Alike (.items vs) (.items vs') →
      Alike (.value (.list vs)) (.value (.list vs'))
  | object {fields fields' : Entries} : Alike (.members fields) (.members fields') →
      Alike (.value (.map (Entries.putAll [] fields)))
        (.value (.map (Entries.putAll [] fields')))
  | noItems : Alike (.items []) (.items [])
  | item {v v' : Value} {vs vs' : List Value} : Alike (.value v) (.value v') →
      Alike (.items vs) (.items vs') → Alike (.items (v :: vs)) (.items (v' :: vs'))
  | noMembers : Alike (.members []) (.members [])
  | member {k k' : Scalar} {v v' : Value} {fields fields' : Entries} :
      Alike (.value (.atom k)) (.value (.atom k')) → Alike (.value v) (.value v') →
      Alike (.members fields) (.members fields') →
      Alike (.members ((k, v) :: fields)) (.members ((k', v') :: fields'))

theorem Piece.Spell.alike {ps : List Piece} {body : List Char} (spell : Spell ps body) :
    ∃ ps', Spell ps' (dropTrailingCommas body) ∧
      Alike (.value (.str (Piece.string ps))) (.value (.str (Piece.string ps'))) := by
  obtain ⟨ps', left, same | ⟨bracket, bracket'⟩⟩ := spell.dropped
  · exact ⟨ps', left, same ▸ .atom _⟩
  · exact ⟨ps', left, .str bracket.bracketed bracket'.bracketed⟩

section Rows

variable {commas : Bool} {most : Option Nat} {trail rest : List Token} {c : Char}

theorem dropCommas_other (other : c ≠ ',') (rest : List Token) :
    dropCommas (.sign c :: rest) = .sign c :: dropCommas rest :=
  if_neg fun both => other both.1

theorem dropCommas_between {row : List Token} {p : Phrase} (writes : Writes commas most row p)
    (rest : List Token) :
    dropCommas (.sign ',' :: (row ++ rest)) = .sign ',' :: dropCommas (row ++ rest) := by
  obtain ⟨t, later, rfl, opens⟩ := writes.starts
  exact if_neg fun both => absurd both.2 (by simp [closesFirst, opens])

/-- In front of a closing bracket no comma is left. -/
theorem dropCommas_trail (isTrail : IsTrail commas trail)
    (closes : (Token.sign c).closes = true) (rest : List Token) :
    dropCommas (trail ++ (.sign c :: rest)) = .sign c :: dropCommas rest := by
  have other : c ≠ ',' := by
    rintro rfl
    cases closes
  rcases isTrail with rfl | ⟨-, rfl⟩
  · exact dropCommas_other other rest
  · have dropped : dropCommas (.sign ',' :: .sign c :: rest) = dropCommas (.sign c :: rest) :=
      if_pos ⟨rfl, by simp [closesFirst, closes]⟩
    exact dropped.trans (dropCommas_other other rest)

end Rows

/-- **What is left is plain, and writes what is alike.** -/
theorem Writes.plain {most : Option Nat} {ts : List Token} {p : Phrase}
    (writes : Writes true most ts p) :
    ∃ ts' p', Writes false most ts' p' ∧ Alike p p' ∧
      ∀ rest, dropCommas (ts ++ rest) = ts' ++ dropCommas rest := by
  have noTrail : IsTrail false [] := Or.inl rfl
  have empty {c d : Char} (first : c ≠ ',') (second : d ≠ ',') (rest : List Token) :
      dropCommas ([.sign c, .sign d] ++ rest) = [.sign c, .sign d] ++ dropCommas rest :=
    (dropCommas_other first _).trans (congrArg _ (dropCommas_other second rest))
  induction writes with
  | word writes => exact ⟨_, _, .word writes, .atom _, fun rest => rfl⟩
  | quoted spell =>
      obtain ⟨ps', left, alike⟩ := spell.alike
      exact ⟨_, _, .quoted left, alike, fun rest => rfl⟩
  | noItems => exact ⟨_, _, .noItems, .list .noItems, empty (by decide) (by decide)⟩
  | noMembers =>
      have alike : Alike (.value (.map (Entries.putAll [] [])))
        (.value (.map (Entries.putAll [] []))) := .object .noMembers
      exact ⟨_, _, .noMembers, alike, empty (by decide) (by decide)⟩
  | list row isTrail ih =>
      obtain ⟨row', _ | vs' | _, left, alike, dropped⟩ := ih
      case items =>
        refine ⟨_, _, .list left noTrail, .list alike, fun rest => ?_⟩
        simp only [List.cons_append, List.append_assoc, List.nil_append]
        rw [dropCommas_other (by decide), dropped, dropCommas_trail isTrail rfl]
      all_goals cases alike
  | object row isTrail ih =>
      obtain ⟨row', _ | _ | fields', left, alike, dropped⟩ := ih
      case members =>
        refine ⟨_, _, .object left noTrail, .object alike, fun rest => ?_⟩
        simp only [List.cons_append, List.append_assoc, List.nil_append]
        rw [dropCommas_other (by decide), dropped, dropCommas_trail isTrail rfl]
      all_goals cases alike
  | item value ih =>
      obtain ⟨ts', v' | _ | _, left, alike, dropped⟩ := ih
      case value => exact ⟨ts', _, .item left, .item alike .noItems, dropped⟩
      all_goals cases alike
  | items value row first later =>
      obtain ⟨ts', v' | _ | _, left, alike, dropped⟩ := first
      case value =>
        obtain ⟨row', _ | vs' | _, others, alikes, droppedRow⟩ := later
        case items =>
          refine ⟨_, _, .items left others, .item alike alikes, fun rest => ?_⟩
          simp only [List.cons_append, List.append_assoc]
          rw [dropped, dropCommas_between row, droppedRow]
        all_goals cases alikes
      all_goals cases alike
  | member spell value ih =>
      obtain ⟨ps', key, alikeKey⟩ := spell.alike
      obtain ⟨ts', v' | _ | _, left, alike, dropped⟩ := ih
      case value =>
        refine ⟨_, _, .member key left, .member alikeKey alike .noMembers, fun rest => ?_⟩
        simp only [List.cons_append]
        rw [dropCommas, dropCommas_other (by decide), dropped]
      all_goals cases alike
  | members spell value row first later =>
      obtain ⟨ps', key, alikeKey⟩ := spell.alike
      obtain ⟨ts', v' | _ | _, left, alike, dropped⟩ := first
      case value =>
        obtain ⟨row', _ | _ | fields', others, alikes, droppedRow⟩ := later
        case members =>
          refine ⟨_, _, .members key left others, .member alikeKey alike alikes, fun rest => ?_⟩
          simp only [List.cons_append, List.append_assoc]
          rw [dropCommas, dropCommas_other (by decide), dropped, dropCommas_between row,
            droppedRow]
        all_goals cases alikes
      all_goals cases alike

/-! ## What does not change -/

section Unchanged

variable {v v' : Value} {vs vs' : List Value} {fields fields' entries : Entries} {key : String}

theorem Bracketed.truthy {s : String} (bracketed : Bracketed s) : (Value.str s).truthy = true := by
  refine bne_iff_ne.mpr ?_
  rintro rfl
  exact absurd bracketed (by decide)

theorem Alike.items_isEmpty (alike : Alike (.items vs) (.items vs')) :
    vs'.isEmpty = vs.isEmpty := by
  cases alike <;> rfl

theorem Alike.members_isEmpty (alike : Alike (.members fields) (.members fields')) :
    fields'.isEmpty = fields.isEmpty := by
  cases alike <;> rfl

/-- What counts as given still does. -/
theorem Alike.truthy (alike : Alike (.value v) (.value v')) : v'.truthy = v.truthy := by
  cases alike with
  | atom a => rfl
  | str bracketed bracketed' => rw [bracketed.truthy, bracketed'.truthy]
  | list alike => simp only [Value.truthy, alike.items_isEmpty]
  | object alike => simp only [Value.truthy, Entries.putAll_isEmpty, alike.members_isEmpty]

/-- A key that is alike is the key itself, or holds a closing bracket as that does. -/
theorem Alike.key_iff {k k' : Scalar} (alike : Alike (.value (.atom k)) (.value (.atom k')))
    (plain : ¬ Bracketed key) : k' = .str key ↔ k = .str key := by
  cases alike with
  | atom => exact Iff.rfl
  | str bracketed bracketed' =>
      constructor
      · rintro same
        cases same
        exact absurd bracketed' plain
      · rintro same
        cases same
        exact absurd bracketed plain

/-- Values that are there, or are not, and are alike. -/
def AlikeFound (found found' : Option Value) : Prop :=
  Option.Rel (fun v v' => Alike (.value v) (.value v')) found found'

theorem Alike.get?_putAll (alike : Alike (.members fields) (.members fields'))
    (plain : ¬ Bracketed key) {done done' : Entries}
    (before : AlikeFound (Entries.get? key done) (Entries.get? key done')) :
    AlikeFound (Entries.get? key (Entries.putAll done fields))
      (Entries.get? key (Entries.putAll done' fields')) := by
  induction fields generalizing fields' done done' with
  | nil =>
      cases alike
      exact before
  | cons field rest ih =>
      cases alike with
      | member alikeKey alike alikes =>
          rename_i k k' v v' fields'
          rw [Entries.putAll_cons, Entries.putAll_cons]
          refine ih alikes ?_
          rw [Entries.get?_put, Entries.get?_put]
          by_cases here : k = .str key
          · rw [if_pos here, if_pos ((alikeKey.key_iff plain).mpr here)]
            exact .some alike
          · rw [if_neg here, if_neg fun there => here ((alikeKey.key_iff plain).mp there)]
            exact before

/-- Under a key without a closing bracket there is what was there. -/
theorem Alike.get? (alike : Alike (.value (.map entries)) (.value v')) :
    ∃ entries', v' = .map entries' ∧ ∀ key, ¬ Bracketed key →
      AlikeFound (Entries.get? key entries) (Entries.get? key entries') := by
  cases alike with
  | object alike => exact ⟨_, rfl, fun key plain => alike.get?_putAll plain .none⟩

end Unchanged

end ClientForge.Json
