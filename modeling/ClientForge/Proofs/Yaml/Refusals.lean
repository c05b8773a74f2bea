/-
# ClientForge.Proofs.Yaml.Refusals -- why a text is not read

A text that is not in the format is refused as such.  A text may also be in the format and write
something that stands for nothing: a number or a date that does not exist, or a character beyond
the last one.  `Refuses text e` lists these reasons, each with what is to be found in the text.

What carries this is that cutting a text into tokens only ever moves forward: what is left at any
time is an end of the text (`Cursor.next_suffix`, `Scans`), so an escape that is refused somewhere
is an escape of the whole text.  Scalars are refused later, when the node that the tokens write
becomes a value, one case for each kind of node (`Node.Refuses`).
-/
import Mathlib.Algebra.Group.Nat.Defs
import ClientForge.Proofs.Data.Attempt
import ClientForge.Yaml.Reader

namespace ClientForge.Yaml

set_option autoImplicit false

open Attempt (FailsOnly)

/-! ## What is left of a text -/

namespace Cursor

theorem next_suffix (cur : Cursor) : cur.next.rest <:+ cur.rest := by
  unfold next
  split
  · exact List.suffix_rfl
  · rename_i c rest same
    rw [same]
    split
    · exact List.suffix_cons c rest
    · split <;> exact List.suffix_cons c rest

theorem skip_suffix (n : Nat) (cur : Cursor) : (cur.skip n).rest <:+ cur.rest := by
  induction n generalizing cur with
  | zero => exact List.suffix_rfl
  | succ n ih => exact (ih cur.next).trans cur.next_suffix

theorem lineBreak?_suffix {cur after : Cursor} {c : Char}
    (found : cur.lineBreak? = some (c, after)) : after.rest <:+ cur.rest := by
  unfold lineBreak? at found
  split at found
  · cases found
    exact cur.skip_suffix 2
  · split at found
    · cases found
      exact cur.next_suffix
    · cases found
  · cases found

theorem lineBreaks_suffix {blank : Char → Bool} {fuel : Nat} {cur after : Cursor}
    {done breaks : List Char} (found : cur.lineBreaks blank fuel done = some (breaks, after)) :
    after.rest <:+ cur.rest := by
  induction fuel generalizing cur done with
  | zero =>
      cases found
      exact List.suffix_rfl
  | succ fuel ih =>
      rw [lineBreaks] at found
      have blanks : (cur.skipWhile blank).rest <:+ cur.rest := cur.skip_suffix _
      split at found
      · cases found
      · dsimp only at found
        split at found
        · rename_i line
          exact ((ih found).trans (lineBreak?_suffix line)).trans blanks
        · cases found
          exact blanks

end Cursor

/-! ## Escapes -/

/-- The text has an escape of eight digits whose number is not below the bound. -/
def HasEscape (bound : Nat) (text : List Char) : Prop :=
  ∃ digits code rest, '\\' :: 'U' :: digits <:+ text ∧
    Text.readHex 8 0 digits = some (code, rest) ∧ bound ≤ code

/-- Why a text is not cut into tokens. -/
inductive Unscanned (text : List Char) : Failure → Prop
  | invalid : Unscanned text (.of .invalidYaml)
  | character (escape : HasEscape 0x110000 text) : Unscanned text .noSuchCharacter
  | number (escape : HasEscape 0x80000000 text) : Unscanned text .illShaped

theorem HasEscape.mono {bound : Nat} {inner text : List Char} (part : inner <:+ text)
    (escape : HasEscape bound inner) : HasEscape bound text := by
  obtain ⟨digits, code, rest, there, read, high⟩ := escape
  exact ⟨digits, code, rest, there.trans part, read, high⟩

theorem Unscanned.mono {inner text : List Char} (part : inner <:+ text) {e : Failure}
    (reason : Unscanned inner e) : Unscanned text e := by
  cases reason with
  | invalid => exact .invalid
  | character escape => exact .character (escape.mono part)
  | number escape => exact .number (escape.mono part)

/-- A step that reads on: if it succeeds, it leaves an end of the text. -/
structure Scans {α : Type} (text : List Char) (left : α → List Char) (x : Attempt α) : Prop where
  fails : FailsOnly (Unscanned text) x
  leaves : ∀ a, x = .ok a → left a <:+ text

namespace Scans

variable {α β : Type} {text : List Char} {left : α → List Char} {left' : β → List Char}

theorem ok {a : α} (part : left a <:+ text) : Scans text left (.ok a) where
  fails := .ok a
  leaves := by
    rintro _ ⟨⟩
    exact part

theorem invalid : Scans text left (Yaml.invalid : Attempt α) where
  fails := .error .invalid
  leaves := by
    rintro _ ⟨⟩

theorem needed {x : Option α} (part : ∀ a, x = some a → left a <:+ text) :
    Scans text left (Yaml.needed x) := by
  cases x with
  | none => exact .invalid
  | some a => exact .ok (part a rfl)

theorem mono {inner : List Char} {x : Attempt α} (scans : Scans inner left x)
    (part : inner <:+ text) : Scans text left x where
  fails := scans.fails.mono fun _ => .mono part
  leaves a run := (scans.leaves a run).trans part

theorem bind {x : Attempt α} {f : α → Attempt β} (first : Scans text left x)
    (later : ∀ a, x = .ok a → Scans (left a) left' (f a)) : Scans text left' (x >>= f) where
  fails := first.fails.bind fun a run => ((later a run).mono (first.leaves a run)).fails
  leaves b run := by
    obtain ⟨a, start, run⟩ := Attempt.bind_eq_ok run
    exact ((later a start).leaves b run).trans (first.leaves a start)

end Scans

theorem hexValue?_lt {c : Char} {d : Nat} (digit : Text.hexValue? c = some d) : d < 16 := by
  have order (a b : Char) : a ≤ b ↔ a.toNat ≤ b.toNat := Iff.rfl
  unfold Text.hexValue? at digit
  simp only [order] at digit
  split at digit
  · rename_i between
    have upper : c.toNat ≤ 57 := between.2
    have value : c.toNat - 48 = d := Option.some.inj digit
    omega
  · split at digit
    · rename_i between
      have upper : c.toNat ≤ 102 := between.2
      have value : c.toNat - 97 + 10 = d := Option.some.inj digit
      omega
    · split at digit
      · rename_i between
        have upper : c.toNat ≤ 70 := between.2
        have value : c.toNat - 65 + 10 = d := Option.some.inj digit
        omega
      · cases digit

theorem readHex_bound {width value : Nat} {s rest : List Char} {code : Nat}
    (read : Text.readHex width value s = some (code, rest)) :
    code < (value + 1) * 16 ^ width := by
  induction width generalizing value s with
  | zero =>
      cases read
      omega
  | succ width ih =>
      cases s with
      | nil => cases read
      | cons c s =>
          rw [Text.readHex] at read
          split at read
          · rename_i d digit
            have small : d < 16 := hexValue?_lt digit
            have below := ih read
            have grown : (value * 16 + d + 1) * 16 ^ width ≤ (value + 1) * 16 ^ (width + 1) := by
              rw [Nat.pow_succ, Nat.mul_comm (16 ^ width), ← Nat.mul_assoc]
              exact Nat.mul_le_mul_right _ (by omega)
            omega
          · cases read

/-- Only an escape of eight digits can stand for no character. -/
theorem escapedChar_scans {e : Char} {width : Nat} (introduced : escapeWidth? e = some width)
    (digits : List Char) :
    (escapedChar width digits).FailsOnly (Unscanned ('\\' :: e :: digits)) := by
  unfold escapedChar
  split
  · exact .error .invalid
  · rename_i code rest read
    have wide (high : 0x110000 ≤ code) : e = 'U' ∧ width = 8 := by
      have below := readHex_bound read
      unfold escapeWidth? at introduced
      split at introduced
      · cases introduced
        omega
      · split at introduced
        · cases introduced
          omega
        · split at introduced
          · rename_i same
            cases introduced
            exact ⟨same, rfl⟩
          · cases introduced
    split
    · rename_i high
      obtain ⟨rfl, rfl⟩ := wide (by omega)
      exact .error (.number ⟨digits, code, rest, List.suffix_rfl, read, high⟩)
    · split
      · rename_i high
        obtain ⟨rfl, rfl⟩ := wide high
        exact .error (.character ⟨digits, code, rest, List.suffix_rfl, read, high⟩)
      · split
        · split <;> exact .ok _
        · exact .ok _

/-! ## Scalars -/

/-- What is left behind line ends. -/
theorem lineBreaks_scans {blank : Char → Bool} {fuel : Nat} {cur : Cursor} {done : List Char} :
    Scans cur.rest (fun found => found.2.rest) (needed (cur.lineBreaks blank fuel done)) :=
  .needed fun _ found => Cursor.lineBreaks_suffix found

theorem readQuoted_scans (double : Bool) (fuel : Nat) (cur : Cursor) (done : List Char) :
    Scans cur.rest (fun found => found.2.rest) (readQuoted double fuel cur done) := by
  induction fuel generalizing cur done with
  | zero => exact .invalid
  | succ fuel ih =>
      have further (n : Nat) (done : List Char) :
          Scans cur.rest (fun found => found.2.rest) (readQuoted double fuel (cur.skip n) done) :=
        (ih (cur.skip n) done).mono (cur.skip_suffix n)
      rw [readQuoted]
      split
      · exact .invalid
      · rename_i c rest same
        split
        · split
          · exact further 2 _
          · exact .ok cur.next_suffix
        split
        · exact .ok cur.next_suffix
        split
        · rename_i backslash
          split
          · exact .invalid
          · rename_i e digits
            split
            · exact further 2 _
            · rename_i width _ introduced
              have escape : Scans cur.rest (fun _ : Char × Nat => cur.rest)
                  (escapedChar width digits) := by
                refine ⟨?_, fun _ _ => List.suffix_rfl⟩
                rw [same, backslash.1]
                exact escapedChar_scans introduced digits
              exact escape.bind fun found _ => further (2 + found.2) _
            · have line : Scans cur.rest (fun found => found.2.rest)
                  (needed cur.next.lineBreak?) :=
                .needed fun _ found => (Cursor.lineBreak?_suffix found).trans cur.next_suffix
              refine line.bind fun first _ => ?_
              exact lineBreaks_scans.bind fun more _ => ih more.2 _
        split
        · dsimp only
          split
          · rename_i first after line
            have behind : after.rest <:+ cur.rest :=
              (Cursor.lineBreak?_suffix line).trans (cur.skip_suffix _)
            exact (lineBreaks_scans.bind fun more _ => ih more.2 _).mono behind
          · exact further _ _
        · exact (ih cur.next _).mono cur.next_suffix

theorem plainGap_suffix (fuel : Nat) (cur : Cursor) :
    (plainGap fuel cur).2.2.2.rest <:+ cur.rest := by
  have blanks := cur.skip_suffix (cur.rest.takeWhile (· == ' ')).length
  unfold plainGap
  dsimp only
  split
  · rename_i first after line
    have behind := (Cursor.lineBreak?_suffix line).trans blanks
    split
    · rename_i more last breaks
      exact (Cursor.lineBreaks_suffix breaks).trans behind
    · exact behind
  · exact blanks

theorem readPlain_suffix (flow : Bool) (indent : Int) (fuel : Nat) (cur : Cursor)
    (done gap : List Char) (ended : Bool) :
    (readPlain flow indent fuel cur done gap ended).2.2.rest <:+ cur.rest := by
  induction fuel generalizing cur done gap ended with
  | zero => exact List.suffix_rfl
  | succ fuel ih =>
      rw [readPlain]
      dsimp only
      generalize (if cur.rest.head? == some '#' then 0 else plainLength flow cur.rest) = length
      have behind := (plainGap_suffix (fuel + 1) (cur.skip length)).trans (cur.skip_suffix length)
      split
      · exact List.suffix_rfl
      · split
        · exact behind
        · exact (ih _ _ _ _).trans behind

/-! ## Tokens -/

namespace Scanner

variable {sc next : Scanner}

theorem dropPending_cursor (run : sc.dropPending = some next) : next.cursor = sc.cursor := by
  unfold dropPending at run
  split at run
  · split at run <;> cases run
    rfl
  · cases run
    rfl

theorem savePending_cursor (run : sc.savePending = some next) : next.cursor = sc.cursor := by
  unfold savePending at run
  dsimp only at run
  split at run
  · obtain ⟨middle, dropped, rfl⟩ := Option.map_eq_some_iff.mp run
    have kept := dropPending_cursor dropped
    exact kept
  · cases run
    rfl

theorem dropStale_cursor (run : sc.dropStale = some next) : next.cursor = sc.cursor := by
  unfold dropStale at run
  dsimp only at run
  split at run <;> cases run
  rfl

theorem openBlock_cursor (column place : Nat) (t : Token) (sc : Scanner) :
    (sc.openBlock column place t).cursor = sc.cursor := by
  unfold openBlock
  split <;> rfl

theorem unwind_cursor (column : Int) (indents : List Int) (sc : Scanner) :
    (unwind column indents sc).cursor = sc.cursor := by
  induction indents generalizing sc with
  | nil => rfl
  | cons outer rest ih =>
      rw [unwind]
      split
      · exact ih _
      · rfl

theorem skipGaps_suffix (fuel : Nat) (sc : Scanner) :
    (sc.skipGaps fuel).cursor.rest <:+ sc.cursor.rest := by
  induction fuel generalizing sc with
  | zero => exact List.suffix_rfl
  | succ fuel ih =>
      rw [skipGaps]
      have blanks := sc.cursor.skip_suffix (sc.cursor.rest.takeWhile (· == ' ')).length
      generalize here : (if (sc.cursor.skipWhile (· == ' ')).rest.head? == some '#' then
          (sc.cursor.skipWhile (· == ' ')).skipWhile (!isBreak ·)
        else sc.cursor.skipWhile (· == ' ')) = cur
      have comment : cur.rest <:+ sc.cursor.rest := by
        rw [← here]
        split
        · exact (Cursor.skip_suffix _ _).trans blanks
        · exact blanks
      split
      · rename_i c after line
        exact ((ih _).trans (Cursor.lineBreak?_suffix line)).trans comment
      · exact comment

theorem next_suffix_of_kept {middle : Scanner} (kept : middle.cursor = sc.cursor) :
    middle.cursor.next.rest <:+ sc.cursor.rest := kept ▸ middle.cursor.next_suffix

/-- A step that forgets the possible key and goes one character further. -/
theorem dropPending_suffix {middle : Scanner} (kept : middle.cursor = sc.cursor)
    {change : Scanner → Scanner} (further : ∀ s, (change s).cursor = s.cursor.next)
    (run : middle.dropPending.map change = some next) : next.cursor.rest <:+ sc.cursor.rest := by
  obtain ⟨dropped, drop, rfl⟩ := Option.map_eq_some_iff.mp run
  rw [further]
  exact next_suffix_of_kept ((dropPending_cursor drop).trans kept)

theorem openFlow_suffix {t : Token} (run : sc.openFlow t = some next) :
    next.cursor.rest <:+ sc.cursor.rest := by
  obtain ⟨saved, save, rfl⟩ := Option.map_eq_some_iff.mp run
  exact next_suffix_of_kept (savePending_cursor save)

theorem closeFlow_suffix {t : Token} (run : sc.closeFlow t = some next) :
    next.cursor.rest <:+ sc.cursor.rest := by
  unfold closeFlow at run
  split at run
  · cases run
  · exact dropPending_suffix rfl (fun _ => rfl) run

theorem flowEntry_suffix (run : sc.flowEntry = some next) :
    next.cursor.rest <:+ sc.cursor.rest := dropPending_suffix rfl (fun _ => rfl) run

/-- A block is opened or not; the place stays the same. -/
theorem opened_cursor {given : Prop} [Decidable given] (column place : Nat) (t : Token) :
    (if given then sc.openBlock column place t else sc).cursor = sc.cursor := by
  split
  · exact openBlock_cursor ..
  · rfl

theorem blockEntry_suffix (run : sc.blockEntry = some next) :
    next.cursor.rest <:+ sc.cursor.rest := by
  unfold blockEntry at run
  split at run
  · cases run
  · exact dropPending_suffix (opened_cursor ..) (fun _ => rfl) run

theorem explicitKey_suffix (run : sc.explicitKey = some next) :
    next.cursor.rest <:+ sc.cursor.rest := by
  unfold explicitKey at run
  split at run
  · cases run
  · exact dropPending_suffix (opened_cursor ..) (fun _ => rfl) run

theorem valueMark_suffix (run : sc.valueMark = some next) :
    next.cursor.rest <:+ sc.cursor.rest := by
  unfold valueMark at run
  split at run
  · rename_i key _
    obtain rfl := Option.some.inj run
    refine next_suffix_of_kept ?_
    exact opened_cursor ..
  · split at run
    · cases run
    · refine dropPending_suffix ?_ (fun _ => rfl) run
      exact opened_cursor ..

theorem separator_suffix {t : Token} (run : sc.separator t = some next) :
    next.cursor.rest <:+ sc.cursor.rest := by
  obtain ⟨dropped, drop, rfl⟩ := Option.map_eq_some_iff.mp run
  have kept : dropped.cursor = sc.cursor := (dropPending_cursor drop).trans (unwind_cursor ..)
  show (dropped.cursor.skip 3).rest <:+ _
  rw [kept]
  exact sc.cursor.skip_suffix 3

theorem plainScalar_suffix (run : sc.plainScalar = some next) :
    next.cursor.rest <:+ sc.cursor.rest := by
  obtain ⟨saved, save, run⟩ := Option.bind_eq_some_iff.mp run
  have kept : saved.cursor.rest <:+ sc.cursor.rest := savePending_cursor save ▸ List.suffix_rfl
  have behind := readPlain_suffix (saved.flow != 0) (saved.indent + 1)
    (saved.cursor.rest.length + 1) saved.cursor [] [] false
  revert run behind
  generalize readPlain (saved.flow != 0) (saved.indent + 1)
    (saved.cursor.rest.length + 1) saved.cursor [] [] false = found
  intro run behind
  obtain rfl := Option.some.inj run
  exact behind.trans kept

/-- A choice between two steps, each of which reads on. -/
theorem choice_suffix {given : Prop} [Decidable given] {x y : Option Scanner}
    (first : x = some next → next.cursor.rest <:+ sc.cursor.rest)
    (second : y = some next → next.cursor.rest <:+ sc.cursor.rest)
    (run : (if given then x else y) = some next) : next.cursor.rest <:+ sc.cursor.rest := by
  by_cases holds : given
  · rw [if_pos holds] at run
    exact first run
  · rw [if_neg holds] at run
    exact second run

theorem token?_suffix {c : Char} {rest : List Char} (run : sc.token? c rest = some next) :
    next.cursor.rest <:+ sc.cursor.rest := by
  unfold token? at run
  refine choice_suffix separator_suffix (fun run => ?_) run
  refine choice_suffix separator_suffix (fun run => ?_) run
  refine choice_suffix openFlow_suffix (fun run => ?_) run
  refine choice_suffix openFlow_suffix (fun run => ?_) run
  refine choice_suffix closeFlow_suffix (fun run => ?_) run
  refine choice_suffix closeFlow_suffix (fun run => ?_) run
  refine choice_suffix flowEntry_suffix (fun run => ?_) run
  refine choice_suffix blockEntry_suffix (fun run => ?_) run
  refine choice_suffix explicitKey_suffix (fun run => ?_) run
  refine choice_suffix valueMark_suffix (fun run => ?_) run
  refine choice_suffix plainScalar_suffix (fun run => ?_) run
  cases run

theorem quotedScalar_scans (double : Bool) (sc : Scanner) :
    Scans sc.cursor.rest (fun next => next.cursor.rest) (sc.quotedScalar double) := by
  have saved : Scans sc.cursor.rest (fun saved => saved.cursor.rest) (needed sc.savePending) :=
    .needed fun saved save => savePending_cursor save ▸ List.suffix_rfl
  refine saved.bind fun saved _ => ?_
  have quoted := (readQuoted_scans double (saved.cursor.rest.length + 1) saved.cursor.next
    []).mono saved.cursor.next_suffix
  exact quoted.bind fun found _ => .ok List.suffix_rfl

theorem token_scans (c : Char) (rest : List Char) (sc : Scanner) :
    Scans sc.cursor.rest (fun next => next.cursor.rest) (sc.token c rest) := by
  unfold token
  split
  · exact quotedScalar_scans false sc
  split
  · exact quotedScalar_scans true sc
  · exact .needed fun next run => token?_suffix run

theorem run_failsOnly (fuel : Nat) (sc : Scanner) :
    (run fuel sc).FailsOnly (Unscanned sc.cursor.rest) := by
  induction fuel generalizing sc with
  | zero => exact .error .invalid
  | succ fuel ih =>
      have skipped : Scans sc.cursor.rest (fun next => next.cursor.rest)
          (needed (sc.skipGaps (sc.cursor.rest.length + 1)).dropStale) :=
        .needed fun next run => dropStale_cursor run ▸ skipGaps_suffix ..
      refine skipped.fails.bind fun sc' start => ?_
      suffices later : FailsOnly (Unscanned sc'.cursor.rest) _ from
        later.mono fun _ => .mono (skipped.leaves sc' start)
      split
      · refine .bind ?_ fun _ _ => .ok _
        unfold needed
        split
        · exact .ok _
        · exact .error .invalid
      · rename_i c rest same
        have unwound := unwind_cursor sc'.cursor.column sc'.indents sc'
        have cut := token_scans c rest (unwind sc'.cursor.column sc'.indents sc')
        rw [unwound] at cut
        exact cut.fails.bind fun sc'' step => (ih sc'').mono fun _ => .mono (cut.leaves sc'' step)

end Scanner

theorem tokens_failsOnly (text : List Char) : (tokens text).FailsOnly (Unscanned text) := by
  unfold tokens
  split
  · refine (Scanner.run_failsOnly _ _).mono fun _ => .mono ?_
    split
    · exact Cursor.next_suffix _
    · exact List.suffix_rfl
  · exact .error .invalid

/-! ## Scalars that stand for something -/

/-- Why a plain scalar stands for nothing. -/
inductive Unmeant (text : String) : Failure → Prop
  | integer {fault : Text.IntegerFault} (form : integer? text.toList = some (.error fault)) :
      Unmeant text (.badInteger fault)
  | moment {a : Scalar} {fault : MomentFault} (form : date? text.toList = some a)
      (none : checkedDate a = .error (.noSuchMoment fault)) : Unmeant text (.noSuchMoment fault)

theorem checkedDate_failsOnly (a : Scalar) :
    (checkedDate a).FailsOnly fun e => ∃ fault, e = .noSuchMoment fault := by
  have checked (fault? : Option MomentFault) (a : Scalar) :
      FailsOnly (fun e => ∃ fault, e = .noSuchMoment fault)
        ((fault?.map fun fault =>
          (.error (.noSuchMoment fault) : Attempt Scalar)).getD (.ok a)) := by
    cases fault? with
    | none => exact .ok a
    | some fault => exact .error ⟨fault, rfl⟩
  cases a with
  | date d => exact checked d.fault? (.date d)
  | moment m => exact checked m.fault? (.moment m)
  | _ => exact .ok _

theorem plainScalar_failsOnly (text : String) : (plainScalar text).FailsOnly (Unmeant text) := by
  unfold plainScalar
  dsimp only
  split
  · exact .ok _
  · split
    · exact .ok _
    · exact .ok _
    · rename_i fault _ form
      exact .error (.integer form)
    · split
      · exact .ok _
      · split
        · rename_i a form
          intro e failed
          obtain ⟨fault, rfl⟩ := checkedDate_failsOnly a e failed
          exact .moment form failed
        · exact .ok _

/-! ## Nodes -/

namespace Node

/-- A plain scalar stands somewhere in the node. -/
inductive HasPlain (text : String) : Node → Prop
  | scalar : HasPlain text (.scalar text true)
  | item {item : Node} {items : List Node} (member : item ∈ items) (inside : HasPlain text item) :
      HasPlain text (.sequence items)
  | key {pair : Node × Node} {pairs : List (Node × Node)} (member : pair ∈ pairs)
      (inside : HasPlain text pair.1) : HasPlain text (.mapping pairs)
  | value {pair : Node × Node} {pairs : List (Node × Node)} (member : pair ∈ pairs)
      (inside : HasPlain text pair.2) : HasPlain text (.mapping pairs)

/-- Why a node has no value. -/
inductive Refuses (node : Node) : Failure → Prop
  | invalid : Refuses node (.of .invalidYaml)
  | scalar {text : String} {e : Failure} (inside : HasPlain text node) (unmeant : Unmeant text e) :
      Refuses node e

namespace Refuses

variable {e : Failure} {node : Node} {items : List Node} {pairs : List (Node × Node)}

theorem whole {inner : Node} (refuses : inner.Refuses e)
    (larger : ∀ text, HasPlain text inner → HasPlain text node) : node.Refuses e := by
  cases refuses with
  | invalid => exact .invalid
  | scalar inside unmeant => exact .scalar (larger _ inside) unmeant

theorem sequence {item : Node} (member : item ∈ items) (refuses : item.Refuses e) :
    (Node.sequence items).Refuses e := refuses.whole fun _ => .item member

theorem key {pair : Node × Node} (member : pair ∈ pairs) (refuses : pair.1.Refuses e) :
    (Node.mapping pairs).Refuses e := refuses.whole fun _ => .key member

theorem value {pair : Node × Node} (member : pair ∈ pairs) (refuses : pair.2.Refuses e) :
    (Node.mapping pairs).Refuses e := refuses.whole fun _ => .value member

end Refuses

theorem keyOf_failsOnly (key : Node) : (keyOf key).FailsOnly key.Refuses := by
  cases key with
  | scalar text plain =>
      rw [keyOf]
      split
      · rename_i bare
        obtain ⟨rfl, -⟩ := bare
        exact (plainScalar_failsOnly text).mono fun e unmeant => .scalar .scalar unmeant
      · exact .ok _
  | sequence items => exact .error .invalid
  | mapping pairs => exact .error .invalid

mutual

theorem valueOf_failsOnly : ∀ node : Node, (valueOf node).FailsOnly node.Refuses
  | .scalar text plain => by
    rw [valueOf]
    split
    · rename_i bare
      subst bare
      split
      · exact .error .invalid
      · exact ((plainScalar_failsOnly text).mono fun e unmeant => .scalar .scalar unmeant).map
    · exact .ok _
  | .sequence items => by
    rw [valueOf]
    refine FailsOnly.map ((valuesOf_failsOnly items).mono fun e some => ?_)
    obtain ⟨item, member, refuses⟩ := some
    exact refuses.sequence member
  | .mapping pairs => by
    rw [valueOf]
    refine FailsOnly.map ((entriesOf_failsOnly pairs []).mono fun e some => ?_)
    obtain ⟨pair, member, key | value⟩ := some
    · exact key.key member
    · exact value.value member

theorem valuesOf_failsOnly : ∀ items : List Node,
    (valuesOf items).FailsOnly fun e => ∃ item ∈ items, item.Refuses e
  | [] => .ok []
  | item :: rest => by
    rw [valuesOf]
    refine .bind ((valueOf_failsOnly item).mono fun e refuses =>
      ⟨item, List.mem_cons_self, refuses⟩) fun _ _ => ?_
    refine .bind ((valuesOf_failsOnly rest).mono fun e some => ?_) fun _ _ => .ok _
    obtain ⟨other, member, refuses⟩ := some
    exact ⟨other, List.mem_cons_of_mem _ member, refuses⟩

theorem entriesOf_failsOnly : ∀ (pairs : List (Node × Node)) (done : Entries),
    (entriesOf done pairs).FailsOnly fun e => ∃ pair ∈ pairs, pair.1.Refuses e ∨ pair.2.Refuses e
  | [], done => .ok done
  | (key, value) :: rest, done => by
    rw [entriesOf]
    refine .bind ((keyOf_failsOnly key).mono fun e refuses =>
      ⟨_, List.mem_cons_self, Or.inl refuses⟩) fun _ _ => ?_
    refine .bind ((valueOf_failsOnly value).mono fun e refuses =>
      ⟨_, List.mem_cons_self, Or.inr refuses⟩) fun _ _ => ?_
    refine (entriesOf_failsOnly rest _).mono fun e some => ?_
    obtain ⟨other, member, refuses⟩ := some
    exact ⟨other, List.mem_cons_of_mem _ member, refuses⟩

end

theorem mem_joinLevels {as bs : List (Option Failure)} {e : Failure}
    (member : some e ∈ joinLevels as bs) : some e ∈ as ∨ some e ∈ bs := by
  induction as generalizing bs with
  | nil => exact Or.inr member
  | cons a as ih =>
      cases bs with
      | nil => exact Or.inl member
      | cons b bs =>
          rw [joinLevels] at member
          rcases List.mem_cons.mp member with here | later
          · cases a with
            | none => exact Or.inr (here ▸ List.mem_cons_self)
            | some a => exact Or.inl (here ▸ List.mem_cons_self)
          · rcases ih later with first | second
            · exact Or.inl (List.mem_cons_of_mem _ first)
            · exact Or.inr (List.mem_cons_of_mem _ second)

theorem ownFailure?_refuses {node : Node} {e : Failure} (failed : node.ownFailure? = some e) :
    node.Refuses e := by
  cases node with
  | scalar text plain =>
      unfold ownFailure? at failed
      dsimp only at failed
      split at failed
      · cases failed
      · rename_i failure run
        cases failed
        exact valueOf_failsOnly _ e run
  | sequence items => cases failed
  | mapping pairs => cases failed

theorem keyFailure?_refuses {key : Node} {e : Failure} (failed : key.keyFailure? = some e) :
    key.Refuses e := by
  unfold keyFailure? at failed
  split at failed
  · cases failed
  · rename_i failure run
    cases failed
    exact keyOf_failsOnly key e run

mutual

theorem levels_refuses : ∀ (node : Node) (e : Failure), some e ∈ node.levels → node.Refuses e
  | .scalar text plain, e, member => by cases member
  | .sequence items, e, member => by
    obtain ⟨item, there, refuses⟩ := itemLevels_refuses items e member
    exact refuses.sequence there
  | .mapping pairs, e, member => by
    obtain ⟨pair, there, key | value⟩ := pairLevels_refuses pairs e member
    · exact key.key there
    · exact value.value there

theorem itemLevels_refuses : ∀ (items : List Node) (e : Failure),
    some e ∈ itemLevels items → ∃ item ∈ items, item.Refuses e
  | [], e, member => by cases member
  | item :: rest, e, member => by
    rw [itemLevels] at member
    rcases mem_joinLevels member with here | later
    · refine ⟨item, List.mem_cons_self, ?_⟩
      rcases List.mem_cons.mp here with own | below
      · exact ownFailure?_refuses own.symm
      · exact levels_refuses item e below
    · obtain ⟨other, there, refuses⟩ := itemLevels_refuses rest e later
      exact ⟨other, List.mem_cons_of_mem _ there, refuses⟩

theorem pairLevels_refuses : ∀ (pairs : List (Node × Node)) (e : Failure),
    some e ∈ pairLevels pairs → ∃ pair ∈ pairs, pair.1.Refuses e ∨ pair.2.Refuses e
  | [], e, member => by cases member
  | (key, value) :: rest, e, member => by
    rw [pairLevels] at member
    rcases mem_joinLevels member with here | later
    · refine ⟨(key, value), List.mem_cons_self, ?_⟩
      rcases List.mem_cons.mp here with own | below
      · cases failed : key.keyFailure? with
        | none =>
            rw [failed, Option.none_or] at own
            exact Or.inr (ownFailure?_refuses own.symm)
        | some failure =>
            rw [failed, Option.some_or] at own
            exact Or.inl (keyFailure?_refuses (failed.trans own.symm))
      · exact Or.inr (levels_refuses value e below)
    · obtain ⟨other, there, refuses⟩ := pairLevels_refuses rest e later
      exact ⟨other, List.mem_cons_of_mem _ there, refuses⟩

end

theorem firstFailure?_refuses {node : Node} {e : Failure} (failed : node.firstFailure? = some e) :
    node.Refuses e := by
  unfold firstFailure? at failed
  obtain ⟨level, member, same⟩ := List.exists_of_findSome?_eq_some failed
  obtain rfl : level = some e := same
  rcases List.mem_cons.mp member with own | below
  · exact ownFailure?_refuses own.symm
  · exact levels_refuses node e below

end Node

/-! ## Texts -/

/-- Why a text is not read: it is not in the format, an escape in it stands for no character, or
a plain scalar of the node that it writes stands for nothing. -/
inductive Refuses (text : String) : Failure → Prop
  | invalid : Refuses text (.of .invalidYaml)
  | character (escape : HasEscape 0x110000 text.toList) : Refuses text .noSuchCharacter
  | number (escape : HasEscape 0x80000000 text.toList) : Refuses text .illShaped
  | scalar {ts : List Token} {node : Node} {plain : String} {e : Failure}
      (cut : tokens text.toList = .ok ts) (written : Node.ofDocument? ts = some node)
      (inside : node.HasPlain plain) (unmeant : Unmeant plain e) : Refuses text e

/-- **A text is refused for one of the reasons, and there is something in the text that is one.** -/
theorem read_failsOnly (text : String) : (read text).FailsOnly (Refuses text) := by
  have reads {ts : List Token} {node : Node} (cut : tokens text.toList = .ok ts)
      (written : Node.ofDocument? ts = some node) {e : Failure} (refuses : node.Refuses e) :
      Refuses text e := by
    cases refuses with
    | invalid => exact .invalid
    | scalar inside unmeant => exact .scalar cut written inside unmeant
  unfold read
  refine .bind ((tokens_failsOnly text.toList).mono fun e reason => ?_) fun ts cut => ?_
  · cases reason with
    | invalid => exact .invalid
    | character escape => exact .character escape
    | number escape => exact .number escape
  cases written : Node.ofDocument? ts with
  | none => exact .error .invalid
  | some node =>
      dsimp only [needed, bind, Except.bind]
      split
      · rename_i failure first
        exact .error (reads cut written (Node.firstFailure?_refuses first))
      · exact (Node.valueOf_failsOnly node).mono fun e => reads cut written

end ClientForge.Yaml
