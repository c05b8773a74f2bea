/-
# ClientForge.Proofs.Types.Writing -- how types are written

`Shows signs text t` says that a text is the text of the type `t`, wherever it stands, with
no connective outside brackets but those in `signs`.  Every way in which type expressions
are written keeps this: arrays, parentheses, lists of members with their repeats left out,
tuples and objects.  Members of an intersection may only be texts without a union outside
brackets (`Connective.within`); members of a union may be any, as the intersections among
them bind tighter anyway.

Whatever text is shown is read (`Shows.read?_eq_some`), and as one type only (`Shows.same`).
That is why repeated texts are repeated members.
-/
import ClientForge.Proofs.Data.Attempt
import ClientForge.Proofs.Data.Part
import ClientForge.Proofs.Types.Texts

namespace ClientForge

set_option autoImplicit false

open TypeTree (Same)

namespace Connective

/-- The connectives that may stand in a member without parentheses. -/
def within : Connective → List Connective
  | .union => [.union, .intersection]
  | .intersection => [.intersection]

/-- A connective as it is written between members. -/
def separator : Connective → String
  | .union => " | "
  | .intersection => " & "

/-- The connective that is put in parentheses in members. -/
def other : Connective → Connective
  | .union => .intersection
  | .intersection => .union

theorem toList_separator (c : Connective) : c.separator.toList = [' ', c.sign, ' '] := by
  cases c <;> decide

end Connective

namespace TypeText

/-! ## Lists of pieces -/

theorem mem_intercalate {α : Type} {separator : List α} {groups : List (List α)} {a : α}
    (member : a ∈ separator.intercalate groups) :
    a ∈ separator ∨ ∃ group ∈ groups, a ∈ group := by
  induction groups with
  | nil => simp at member
  | cons group rest ih =>
      cases rest with
      | nil => exact Or.inr ⟨group, List.mem_cons_self, by simpa using member⟩
      | cons next rest =>
          rw [List.intercalate_cons_cons, List.mem_append, List.mem_append] at member
          rcases member with (here | between) | later
          · exact Or.inr ⟨group, List.mem_cons_self, here⟩
          · exact Or.inl between
          · rcases ih later with between | ⟨other, there, inside⟩
            · exact Or.inl between
            · exact Or.inr ⟨other, List.mem_cons_of_mem _ there, inside⟩

/-- What is joined by separators is cut at them again. -/
theorem splitOnP_intercalate {α : Type} {p : α → Bool} {separator : α} (cuts : p separator = true)
    {groups : List (List α)} (some : groups ≠ [])
    (whole : ∀ group ∈ groups, ∀ a ∈ group, p a = false) :
    ([separator].intercalate groups).splitOnP p = groups := by
  induction groups with
  | nil => exact absurd rfl some
  | cons group rest ih =>
      have first := whole group List.mem_cons_self
      cases rest with
      | nil => simpa using List.splitOnP_eq_singleton first
      | cons next rest =>
          rw [List.intercalate_cons_cons, List.append_assoc, List.singleton_append,
            List.splitOnP_append_cons _ _ cuts, List.splitOnP_eq_singleton first,
            ih (by simp) fun other member => whole other (List.mem_cons_of_mem _ member)]
          rfl

/-! ## Members of a type -/

section Members

variable {P : List Piece} {t : TypeTree} {c : Connective}

theorem splitOnP_sign {d : Char} (none : Piece.sign d ∉ P) :
    P.splitOnP (Piece.isSign d) = [P] := by
  refine List.splitOnP_eq_singleton fun piece member => ?_
  cases piece with
  | sign e =>
      rw [Piece.isSign, beq_eq_false_iff_ne]
      rintro rfl
      exact none member
  | _ => rfl

/-- Without a union outside brackets, a type is one alternative. -/
theorem type?_eq_alternative? (none : .sign '|' ∉ P) : type? P = alternative? P := by
  rw [type?, members?, splitOnP_sign none]
  simp only [List.mapM_cons, List.mapM_nil]
  cases alternative? P <;> rfl

/-- Without any connective outside brackets, a type is one operand. -/
theorem type?_eq_operand? (none : ∀ c : Connective, .sign c.sign ∉ P) : type? P = operand? P := by
  have tight : .sign '&' ∉ P := none .intersection
  rw [type?_eq_alternative? (none .union), alternative?, factors?, splitOnP_sign tight]
  simp only [List.mapM_cons, List.mapM_nil]
  cases operand? P <;> rfl

theorem mapM_ne_nil {α : Type} {f : List Piece → Option α} {p : Piece → Bool} {as : List α}
    (run : (P.splitOnP p).mapM f = some as) : as ≠ [] := by
  have each := mapM_eq_some run
  rintro rfl
  cases splits : P.splitOnP p with
  | nil => exact List.splitOnP_ne_nil _ _ splits
  | cons first rest =>
      rw [splits] at each
      cases each

/-- A type is joined of the members that a connective joins, if no looser one is outside
brackets. -/
theorem members?_of_type? (tight : c = .intersection → .sign '|' ∉ P) (run : type? P = some t) :
    ∃ ts, members? c P = some ts ∧ Same (.joined c ts) t := by
  cases c with
  | union =>
      obtain ⟨ts, members, rfl⟩ := Option.map_eq_some_iff.mp run
      exact ⟨ts, members, (Same.ofMembers (mapM_ne_nil members)).symm⟩
  | intersection =>
      rw [type?_eq_alternative? (tight rfl)] at run
      obtain ⟨ts, members, rfl⟩ := Option.map_eq_some_iff.mp run
      exact ⟨ts, members, (Same.ofMembers (mapM_ne_nil members)).symm⟩

theorem type?_of_members? (tight : c = .intersection → .sign '|' ∉ P) {ts : List TypeTree}
    (run : members? c P = some ts) : ∃ t, type? P = some t ∧ Same t (.joined c ts) := by
  cases c with
  | union => exact ⟨_, by rw [type?, run, Option.map_some], Same.ofMembers (mapM_ne_nil run)⟩
  | intersection =>
      rw [type?_eq_alternative? (tight rfl)]
      have run : factors? P = some ts := run
      exact ⟨_, by rw [alternative?, run, Option.map_some], Same.ofMembers (mapM_ne_nil run)⟩

theorem members?_append {Q : List Piece} {ts us : List TypeTree} (first : members? c P = some ts)
    (second : members? c Q = some us) :
    members? c (P ++ .sign c.sign :: Q) = some (ts ++ us) := by
  cases c with
  | union =>
      have first : (P.splitOnP (Piece.isSign '|')).mapM alternative? = some ts := first
      have second : (Q.splitOnP (Piece.isSign '|')).mapM alternative? = some us := second
      rw [members?, Connective.sign, List.splitOnP_append_cons _ _ rfl, List.mapM_append, first,
        second]
      rfl
  | intersection =>
      have first : (P.splitOnP (Piece.isSign '&')).mapM operand? = some ts := first
      have second : (Q.splitOnP (Piece.isSign '&')).mapM operand? = some us := second
      rw [members?, factors?, Connective.sign, List.splitOnP_append_cons _ _ rfl, List.mapM_append,
        first, second]
      rfl

/-- Members behind each other, with the sign of their connective in between. -/
theorem members?_intercalate {Ps : List (List Piece)} {groups : List (List TypeTree)}
    (each : List.Forall₂ (fun P ts => members? c P = some ts) Ps groups) (some : Ps ≠ []) :
    members? c ([Piece.sign c.sign].intercalate Ps) = .some groups.flatten := by
  induction each with
  | nil => exact absurd rfl some
  | @cons P ts Ps groups first rest ih =>
      cases rest with
      | nil => simpa using first
      | cons next rest =>
          rw [List.intercalate_cons_cons, List.append_assoc, List.singleton_append,
            members?_append first (ih (by simp))]
          rfl

theorem suffixes?_append {u : TypeTree} (run : suffixes? u P = some t) :
    suffixes? u (P ++ [.brackets]) = some (.array t) := by
  induction P generalizing u with
  | nil =>
      cases run
      rfl
  | cons piece P ih =>
      cases piece with
      | brackets => exact ih run
      | _ => cases run

/-- Brackets behind an operand make it an array. -/
theorem operand?_append (run : operand? P = some t) :
    operand? (P ++ [.brackets]) = some (.array t) := by
  cases P with
  | nil => cases run
  | cons piece P =>
      cases piece with
      | tree u => exact suffixes?_append run
      | brackets => exact suffixes?_append run
      | _ => cases run

end Members

/-! ## Texts of types -/

/-- Wherever the text stands it is read as pieces, among them no signs but those that may be,
of which `f` makes what is related to `b`. -/
def Yields {α β : Type} (f : List Piece → Option α) (R : α → β → Prop) (may : Char → Prop)
    (text : String) (b : β) : Prop :=
  ∃ pieces a, Reads text.toList pieces ∧ (∀ d, .sign d ∈ pieces → may d) ∧
    f pieces = some a ∧ R a b

/-- Texts behind each other, with separators in between. -/
theorem Reads.intercalate {texts : List String} {Ps : List (List Piece)}
    (each : List.Forall₂ (fun text P => Reads text.toList P) texts Ps) {separator : String}
    {S : List Piece} (separates : Separates separator.toList S) :
    Reads (String.intercalate separator texts).toList (S.intercalate Ps) := by
  induction each with
  | nil => exact .nil
  | @cons text P texts Ps first rest ih =>
      cases rest with
      | nil => simpa using first
      | cons next rest =>
          rw [String.intercalate_cons_cons, List.intercalate_cons_cons, String.toList_append,
            String.toList_append, List.append_assoc, List.append_assoc]
          exact first.join separates ih

/-- What each of the texts yields. -/
theorem Yields.exists_pieces {α β : Type} {f : List Piece → Option α} {R : α → β → Prop}
    {may : Char → Prop} {texts : List String} {bs : List β}
    (each : List.Forall₂ (Yields f R may) texts bs) :
    ∃ Ps as, List.Forall₂ (fun text P => Reads text.toList P) texts Ps ∧
      (∀ P ∈ Ps, ∀ d, .sign d ∈ P → may d) ∧ List.Forall₂ (fun P a => f P = some a) Ps as ∧
      List.Forall₂ R as bs := by
  induction each with
  | nil => exact ⟨[], [], .nil, fun P member => absurd member List.not_mem_nil, .nil, .nil⟩
  | cons first _ ih =>
      obtain ⟨P, a, reads, signs, made, related⟩ := first
      obtain ⟨Ps, as, readsAll, signsAll, madeAll, relatedAll⟩ := ih
      exact ⟨P :: Ps, a :: as, .cons reads readsAll,
        List.forall_mem_cons.mpr ⟨signs, signsAll⟩, .cons made madeAll, .cons related relatedAll⟩

/-- The text is one of the type, with no connective outside brackets but those given. -/
def Shows (signs : List Connective) : String → TypeTree → Prop :=
  Yields type? Same fun d => ∃ c ∈ signs, d = c.sign

namespace Shows

variable {signs : List Connective} {text : String} {t u : TypeTree}

theorem mono {more : List Connective} (shown : Shows signs text t)
    (among : ∀ c ∈ signs, c ∈ more) : Shows more text t := by
  obtain ⟨P, u, reads, only, type, same⟩ := shown
  refine ⟨P, u, reads, fun d member => ?_, type, same⟩
  obtain ⟨c, there, sign⟩ := only d member
  exact ⟨c, among c there, sign⟩

theorem all (shown : Shows signs text t) : Shows [.union, .intersection] text t :=
  shown.mono fun c _ => by cases c <;> decide

theorem of_same (shown : Shows signs text t) (same : Same t u) : Shows signs text u := by
  obtain ⟨P, v, reads, only, type, first⟩ := shown
  exact ⟨P, v, reads, only, type, first.trans same⟩

/-- A text of a type is read as that type. -/
theorem read?_eq_some (shown : Shows signs text t) : ∃ u, read? text = some u ∧ Same u t := by
  obtain ⟨P, u, reads, -, type, same⟩ := shown
  obtain ⟨tokens, scans, takes⟩ := reads.scanned
  have scanned : tokens? .between text.toList = some tokens := by
    have whole := scans [] trivial
    rwa [List.append_nil, tokens?, Option.map_some, List.append_nil] at whole
  refine ⟨u, ?_, same⟩
  unfold read?
  rw [scanned]
  simp [takes, type]

/-- A text is one of one type only. -/
theorem same (first : Shows signs text t) {others : List Connective}
    (second : Shows others text u) : Same t u := by
  obtain ⟨v, read, isFirst⟩ := first.read?_eq_some
  obtain ⟨w, readAgain, isSecond⟩ := second.read?_eq_some
  obtain rfl : v = w := Option.some.inj (read.symm.trans readAgain)
  exact isFirst.symm.trans isSecond

/-- A single piece is a type of its own. -/
theorem piece (reads : Reads text.toList [.tree u]) (same : Same u t) : Shows [] text t :=
  ⟨_, u, reads, fun d member => by simp at member, rfl, same⟩

theorem leaf (reads : Reads text.toList [.tree (.leaf text)]) : Shows [] text (.leaf text) :=
  piece reads (.refl _)

/-- Parentheses around a text. -/
theorem inParentheses (shown : Shows signs text t) : Shows [] ("(" ++ text ++ ")") t := by
  obtain ⟨P, u, reads, -, type, same⟩ := shown
  have whole : enclosed? '(' ')' P = some (.tree u) := by
    rw [enclosed?, if_pos ⟨rfl, rfl⟩, type, Option.map_some]
  have enclosed := reads.enclosed '(' ')' (by decide) (by decide) whole fun c => by simp
  have chars : ("(" ++ text ++ ")").toList = '(' :: (text.toList ++ [')']) := by
    simp [String.toList_append]
  exact piece (chars ▸ enclosed) same

/-- A text in which a connective is not found outside brackets has no such sign. -/
theorem of_not_hasTopLevel (shown : Shows signs text t) {c : Connective}
    (none : ¬ TypeExpr.hasTopLevel c.sign text = true) : Shows (signs.filter (· ≠ c)) text t := by
  obtain ⟨P, u, reads, only, type, same⟩ := shown
  refine ⟨P, u, reads, fun d member => ?_, type, same⟩
  obtain ⟨e, there, rfl⟩ := only d member
  refine ⟨e, List.mem_filter.mpr ⟨there, ?_⟩, rfl⟩
  have other : e ≠ c := by
    rintro rfl
    have found := reads.found e member []
    rw [List.append_nil] at found
    exact none found
  simpa using other

/-- A text in parentheses where it needs them. -/
theorem parenthesized (shown : Shows signs text t) (c : Connective) :
    Shows (signs.filter (· ≠ c)) (TypeExpr.parenthesized c.sign text) t := by
  unfold TypeExpr.parenthesized
  split
  · exact shown.inParentheses.mono fun d member => absurd member List.not_mem_nil
  · exact shown.of_not_hasTopLevel ‹_›

/-- A member of a type, in parentheses where the looser connective is outside brackets. -/
theorem asMember (shown : Shows signs text t) (c : Connective) :
    Shows c.within (TypeExpr.parenthesized c.other.sign text) t := by
  refine (shown.parenthesized c.other).mono fun d member => ?_
  have other : d ≠ c.other := by simpa using (List.mem_filter.mp member).2
  revert other
  cases c <;> cases d <;> decide

/-- **An array applies to a whole type.** -/
theorem array (shown : Shows signs text t) : Shows [] (TypeExpr.arrayText text) (.array t) := by
  have bare : ∃ item, TypeExpr.arrayText text = item ++ "[]" ∧ Shows [] item t := by
    unfold TypeExpr.arrayText
    split
    · exact ⟨_, rfl, shown.inParentheses⟩
    · rename_i none
      rw [Bool.or_eq_true, not_or] at none
      have first := shown.all.of_not_hasTopLevel (c := .union) none.1
      have second := first.of_not_hasTopLevel (c := .intersection) none.2
      exact ⟨_, rfl, second⟩
  obtain ⟨item, writes, P, u, reads, only, type, same⟩ := bare
  have alone : ∀ c : Connective, .sign c.sign ∉ P := by
    intro c member
    obtain ⟨d, absurd, -⟩ := only _ member
    cases absurd
  have brackets : Reads ['[', ']'] [.brackets] :=
    Reads.nil.enclosed '[' ']' (by decide) (by decide) rfl fun c => by simp
  rw [type?_eq_operand? alone] at type
  have noSign : ∀ c : Connective, .sign c.sign ∉ P ++ [.brackets] := by simpa using alone
  refine ⟨P ++ [.brackets], .array u, ?_, fun d member => ?_, ?_, .array same⟩
  · rw [writes, String.toList_append]
    exact reads.append (Or.inr (by decide)) brackets
  · exact only d (by simpa using member)
  · rw [type?_eq_operand? noSign]
    exact operand?_append type

/-- The text of a member yields the members that it adds. -/
theorem yields_members {c : Connective} (shown : Shows c.within text t) :
    Yields (members? c) (fun ts t => Same (.joined c ts) t) (fun d => ∃ e ∈ c.within, d = e.sign)
      text t := by
  obtain ⟨P, u, reads, only, type, same⟩ := shown
  have tight : c = .intersection → .sign '|' ∉ P := by
    rintro rfl member
    obtain ⟨e, there, sign⟩ := only _ member
    rw [List.mem_singleton.mp there] at sign
    revert sign
    decide
  obtain ⟨ts, members, joined⟩ := members?_of_type? tight type
  exact ⟨P, ts, reads, only, members, joined.trans same⟩

theorem intercalate {c : Connective} {texts : List String} {ts : List TypeTree}
    (each : List.Forall₂ (Shows c.within) texts ts) (some : texts ≠ []) :
    Shows c.within (String.intercalate c.separator texts) (.joined c ts) := by
  obtain ⟨Ps, groups, reads, only, members, same⟩ :=
    Yields.exists_pieces (each.imp fun _ _ shown => shown.yields_members)
  have separates : Separates c.separator.toList [.sign c.sign] := by
    rw [c.toList_separator]
    exact .connective c
  have signs : ∀ d, Piece.sign d ∈ [Piece.sign c.sign].intercalate Ps →
      ∃ e ∈ c.within, d = e.sign := by
    intro d member
    rcases mem_intercalate member with between | ⟨P, there, inside⟩
    · have isSign : d = c.sign := by simpa using between
      exact ⟨c, by cases c <;> decide, isSign⟩
    · exact only P there d inside
  have tight : c = .intersection → Piece.sign '|' ∉ [Piece.sign c.sign].intercalate Ps := by
    rintro rfl member
    obtain ⟨e, there, sign⟩ := signs _ member
    rw [List.mem_singleton.mp there] at sign
    revert sign
    decide
  have pieces : Ps ≠ [] := by
    rintro rfl
    cases reads
    exact some rfl
  obtain ⟨u, type, joined⟩ := type?_of_members? tight (members?_intercalate members pieces)
  exact ⟨_, u, Reads.intercalate reads separates, signs, type, joined.trans (.flatten same)⟩

theorem unknown : Shows [] unknownText .unknown :=
  leaf (.word (by decide) (by decide))

/-- **A union applies to whole alternatives, an intersection to whole members.**  Repeated
texts are left out. -/
theorem joinDistinct {c : Connective} {texts : List String} {ts : List TypeTree}
    (each : List.Forall₂ (Shows c.within) texts ts) :
    Shows c.within (TypeExpr.joinDistinct c.separator texts) (.ofMembers c ts) := by
  obtain ⟨us, distinct, merged⟩ := Same.eraseDups (c := c)
    (fun text t u first second => first.same second) each
  unfold TypeExpr.joinDistinct
  split
  · rename_i none
    have empty : texts = [] := by
      cases texts with
      | nil => rfl
      | cons text rest =>
          rw [List.eraseDups_cons] at none
          cases none
    subst empty
    cases each
    exact unknown.mono fun d member => absurd member List.not_mem_nil
  · rename_i some
    have nonempty : texts.eraseDups ≠ [] := fun none => some none
    have members : ts ≠ [] := by
      rintro rfl
      cases each
      exact nonempty rfl
    exact (intercalate distinct nonempty).of_same (merged.trans (Same.ofMembers members).symm)

end Shows

/-! ## Brackets -/

theorem mapM_of_forall₂ {α β : Type} {f : α → Option β} {as : List α} {bs : List β}
    (each : List.Forall₂ (fun a b => f a = some b) as bs) : as.mapM f = some bs := by
  induction each with
  | nil => rfl
  | cons first _ ih =>
      rw [List.mapM_cons, first, ih]
      rfl

/-- A sign that separates the parts of a list or of a member. -/
theorem separates_sign {d : Char} (plain : d ∈ [',', ';', ':', '?']) : Separates [d] [.sign d] := by
  have facts : isSign d = true ∧ isOpening d = false ∧ isClosing d = false ∧ IsBracketless d ∧
      Connective.union.sign ≠ d ∧ Connective.intersection.sign ≠ d := by
    revert d
    decide
  obtain ⟨isSign, opening, closing, bracketless, union, intersection⟩ := facts
  refine .sign isSign opening closing bracketless fun c => ?_
  cases c with
  | union => exact union
  | intersection => exact intersection

theorem separates_comma : Separates ", ".toList [.sign ','] :=
  (separates_sign (d := ',') (by decide)).append .blank

theorem separates_semicolon : Separates "; ".toList [.sign ';'] :=
  (separates_sign (d := ';') (by decide)).append .blank

theorem separates_colon : Separates ": ".toList [.sign ':'] :=
  (separates_sign (d := ':') (by decide)).append .blank

/-- What stands between square brackets, if there is something and it is no key. -/
theorem squared?_eq {P : List Piece} (some : P ≠ []) (noKey : .sign ':' ∉ P) :
    squared? P = ((P.splitOnP (Piece.isSign ',')).mapM type?).map fun ts => .tree (.tuple ts) := by
  unfold squared?
  split
  · exact absurd rfl some
  · exact absurd (by simp) noKey
  · rfl

/-- What stands between braces, if there is something. -/
theorem braced?_eq {P : List Piece} (some : P ≠ []) :
    braced? P = ((P.splitOnP fun p => p.isSign ',' || p.isSign ';').mapM member?).map fun ms =>
      .tree (.object ms) := by
  unfold braced?
  split
  · exact absurd rfl some
  · rfl

/-- Lists of nonempty parts are not empty. -/
theorem intercalate_ne_nil {α : Type} {separator : List α} {groups : List (List α)}
    (some : groups ≠ []) (each : ∀ group ∈ groups, group ≠ []) :
    separator.intercalate groups ≠ [] := by
  cases groups with
  | nil => exact absurd rfl some
  | cons group rest =>
      have first := each group List.mem_cons_self
      cases rest with
      | nil => simpa using first
      | cons next rest =>
          rw [List.intercalate_cons_cons]
          simp [first]

/-- **A tuple of types.** -/
theorem Shows.tuple {texts : List String} {ts : List TypeTree}
    (each : List.Forall₂ (Shows [.union, .intersection]) texts ts) :
    Shows [] ("[" ++ String.intercalate ", " texts ++ "]") (.tuple ts) := by
  obtain ⟨Ps, us, reads, only, types, same⟩ := Yields.exists_pieces each
  have inner := Reads.intercalate reads separates_comma
  have chars : ("[" ++ String.intercalate ", " texts ++ "]").toList =
      '[' :: ((String.intercalate ", " texts).toList ++ [']']) := by
    simp [String.toList_append]
  have signs : ∀ P ∈ Ps, ∀ d, .sign d ∈ P → d ≠ ',' ∧ d ≠ ':' := by
    intro P member d inside
    obtain ⟨c, -, rfl⟩ := only P member d inside
    cases c <;> decide
  by_cases none : Ps = []
  · subst none
    cases types
    cases same
    have none : enclosed? '[' ']' [] = some .brackets := rfl
    have brackets := inner.enclosed '[' ']' (by decide) (by decide) none fun c => by simp
    exact ⟨_, .tuple [], chars ▸ brackets, fun d member => by simp at member, rfl, .refl _⟩
  · have nonempty : [Piece.sign ','].intercalate Ps ≠ [] := by
      refine intercalate_ne_nil none fun P member => ?_
      rintro rfl
      obtain ⟨u, -, type⟩ := exists_of_mem_right types.flip member
      cases type
    have noKey : Piece.sign ':' ∉ [Piece.sign ','].intercalate Ps := by
      intro member
      rcases mem_intercalate member with between | ⟨P, there, inside⟩
      · simp at between
      · exact (signs P there _ inside).2 rfl
    have cut : ([Piece.sign ','].intercalate Ps).splitOnP (Piece.isSign ',') = Ps := by
      refine splitOnP_intercalate rfl none fun P member piece inside => ?_
      cases piece with
      | sign d => simpa [Piece.isSign] using (signs P member d inside).1
      | _ => rfl
    have whole :
        enclosed? '[' ']' ([Piece.sign ','].intercalate Ps) = some (.tree (.tuple us)) := by
      rw [enclosed?, if_neg (by decide), if_pos ⟨rfl, rfl⟩, squared?_eq nonempty noKey, cut,
        mapM_of_forall₂ types, Option.map_some]
    have enclosed := inner.enclosed '[' ']' (by decide) (by decide) whole fun c => by simp
    exact .piece (chars ▸ enclosed) (.tuple same)

/-- The text is one of the member of an object type. -/
def ShowsMember : String → TreeKey × TypeTree → Prop :=
  Yields member? (fun m n => m.1 = n.1 ∧ Same m.2 n.2) fun d => d ≠ ',' ∧ d ≠ ';'

namespace ShowsMember

variable {signs : List Connective} {text : String} {t : TypeTree}

/-- A key, and behind it the type of the member. -/
theorem of_key {key : String} {K : List Piece} {treeKey : TreeKey} (named : Reads key.toList K)
    (signs' : ∀ d, .sign d ∈ K → d ≠ ',' ∧ d ≠ ';')
    (takes : ∀ P, member? (K ++ (.sign ':' :: P)) = (type? P).map (treeKey, ·))
    (shown : Shows signs text t) : ShowsMember (key ++ ": " ++ text) (treeKey, t) := by
  obtain ⟨P, u, reads, only, type, same⟩ := shown
  refine ⟨K ++ (.sign ':' :: P), (treeKey, u), ?_, fun d member => ?_, ?_, rfl, same⟩
  · rw [String.toList_append, String.toList_append, List.append_assoc]
    exact named.join separates_colon reads
  · rcases List.mem_append.mp member with inKey | behind
    · exact signs' d inKey
    · rcases List.mem_cons.mp behind with colon | inType
      · cases colon
        decide
      · obtain ⟨c, -, rfl⟩ := only d inType
        cases c <;> decide
  · rw [takes, type, Option.map_some]

/-- A property, by its name as it is written. -/
theorem property {key : String} (named : Reads key.toList [.tree (.leaf key)]) (optional : Bool)
    (shown : Shows signs text t) :
    ShowsMember (key ++ (if optional then "?" else "") ++ ": " ++ text)
      (.property key optional, t) := by
  cases optional with
  | false =>
      have plain : key ++ (if false = true then "?" else "") = key := by simp
      rw [plain]
      exact of_key named (fun d member => by simp at member) (fun P => rfl) shown
  | true =>
      have mark : Separates ['?'] [.sign '?'] := separates_sign (by decide)
      have marked : Reads (key ++ (if true = true then "?" else "")).toList
          [.tree (.leaf key), .sign '?'] := by
        have reads := named.join mark .nil
        rw [String.toList_append]
        exact reads
      refine of_key marked (fun d member => ?_) (fun P => rfl) shown
      have isMark : d = '?' := by simpa using member
      subst isMark
      decide

/-- All other members. -/
theorem index (shown : Shows signs text t) :
    ShowsMember (MemberKey.index.text ++ ": " ++ text) (.index "key" "string", t) := by
  have name : Reads "key".toList [.tree (.leaf "key")] := .word (by decide) (by decide)
  have type : Reads "string".toList [.tree (.leaf "string")] := .word (by decide) (by decide)
  have inner := name.join separates_colon type
  have brackets : Reads MemberKey.index.text.toList [.index "key" "string"] :=
    inner.enclosed '[' ']' (by decide) (by decide) rfl fun c => by simp
  exact of_key brackets (fun d member => by simp at member) (fun P => rfl) shown

end ShowsMember

/-- **An object type, member by member.**  Members are separated by commas or by semicolons,
and there may be blanks beside the braces. -/
theorem Shows.braced {texts : List String} {ms : List (TreeKey × TypeTree)}
    (each : List.Forall₂ ShowsMember texts ms) {d : Char} (list : d = ',' ∨ d = ';')
    {separator : String} (separates : Separates separator.toList [.sign d]) (inner : String)
    {text : String}
    (padded : ∀ P, Reads (String.intercalate separator texts).toList P → Reads inner.toList P)
    (whole : text.toList = '\x7b' :: (inner.toList ++ ['\x7d'])) : Shows [] text (.object ms) := by
  obtain ⟨Ps, ns, reads, only, members, same⟩ := Yields.exists_pieces each
  have inside := padded _ (Reads.intercalate reads separates)
  by_cases none : Ps = []
  · subst none
    cases members
    cases same
    have none : enclosed? '\x7b' '\x7d' [] = some (.tree (.object [])) := rfl
    have braces := inside.enclosed '\x7b' '\x7d' (by decide) (by decide) none fun c => by simp
    exact .piece (whole ▸ braces) (.refl _)
  · have nonempty : [Piece.sign d].intercalate Ps ≠ [] := by
      refine intercalate_ne_nil none fun P member => ?_
      rintro rfl
      obtain ⟨n, -, made⟩ := exists_of_mem_right members.flip member
      cases made
    have cut : ([Piece.sign d].intercalate Ps).splitOnP (fun p => p.isSign ',' || p.isSign ';') =
        Ps := by
      refine splitOnP_intercalate ?_ none fun P member piece inside => ?_
      · rcases list with rfl | rfl <;> rfl
      · cases piece with
        | sign e => simpa [Piece.isSign] using only P member e inside
        | _ => rfl
    have braces : enclosed? '\x7b' '\x7d' ([Piece.sign d].intercalate Ps) =
        some (.tree (.object ns)) := by
      rw [enclosed?, if_neg (by decide), if_neg (by decide), if_pos ⟨rfl, rfl⟩, braced?_eq nonempty,
        cut, mapM_of_forall₂ members, Option.map_some]
    have enclosed := inside.enclosed '\x7b' '\x7d' (by decide) (by decide) braces fun c => by simp
    exact .piece (whole ▸ enclosed) (.object same)

/-- The text of an object type. -/
theorem Shows.object {texts : List String} {ms : List (TreeKey × TypeTree)}
    (each : List.Forall₂ ShowsMember texts ms) :
    Shows [] (TypeExpr.objectText texts) (.object ms) := by
  by_cases none : texts = []
  · subst none
    refine .braced each (Or.inr rfl) separates_semicolon " " (fun P reads => ?_) (by decide)
    simpa using reads.join .blank .nil
  · refine .braced each (Or.inr rfl) separates_semicolon
      (" " ++ String.intercalate "; " texts ++ " ") (fun P reads => ?_) ?_
    · have padded := (Reads.nil.join .blank reads).join .blank .nil
      rw [String.toList_append, String.toList_append]
      simpa using padded
    · unfold TypeExpr.objectText
      rw [if_neg (by simpa using none)]
      simp [String.toList_append]

end TypeText

end ClientForge
