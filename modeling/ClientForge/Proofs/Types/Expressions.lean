/-
# ClientForge.Proofs.Types.Expressions -- values written as expressions

Options end up in the code as literals.  `Script.value?` reads such an expression as a script
does: words, strings, numbers, lists and objects, one token after the other.  It knows the
rules of a script that JSON has not: a number is a double, a key that is an index comes before
all others, and `__proto__` is no key.

A value comes back from its text if it is writable (`Value.Writable`): strings in one line,
keys that may stand between apostrophes as they are, and no number or key that a script has
another place for (`Literal.text?_denotes`).  The first two are all that is demanded of a single
string (`string?_quote_iff`) and of a single key (`key?_propertyKey_iff`): what breaks them
breaks the expression.
-/
import ClientForge.Proofs.Config.Shapes
import ClientForge.Proofs.Text.Numerals
import ClientForge.Proofs.Types.Literals
import Mathlib.Data.List.Sort

namespace ClientForge

set_option autoImplicit false

open Text (InLine Raw)
open TypeText (Token Scans Cuts StartsApart IsWord)

namespace Script

/-! ## Words -/

/-- A number as a script has it: the nearest double, unless that is the integer itself. -/
def asNumber : Scalar → Scalar
  | .int i =>
    let x := Binary64.ofDecimal (decide (i < 0)) i.natAbs 0
    if x.equalsInt i then .int i else .float x
  | a => a

/-- The value of a word: a string, a number, or one of the words of JSON. -/
def scalar? : List Char → Option Scalar
  | [] => none
  | c :: rest =>
    if isQuote c then (string? (c :: rest)).map .str
    else
      match Json.readPlain (c :: rest) with
      | .ok (a, []) => some (asNumber a)
      | _ => none

/-- A plain name. -/
def isName : List Char → Bool
  | [] => false
  | c :: rest => Naming.isIdentifierStart c && rest.all Naming.isIdentifierChar

/-- The key that a word gives: a name or a string.  What stands behind `__proto__` is no entry:
it is what the object inherits from. -/
def key? (text : List Char) : Option String :=
  (if isName text then some (String.ofList text) else string? text).filter (· ≠ "__proto__")

/-! ## Objects -/

/-- The index that a key is, if it is one. -/
def index? : Scalar → Option Nat
  | .str s =>
    let n := Text.digitsValue s.toList
    if s = toString n ∧ n < 2 ^ 32 - 1 then some n else none
  | _ => none

/-- The entries of an object in its own order: of those with one key the last one stands, at the
place of the first one, and indexes come first, from the least on. -/
def ownOrder (entries : Entries) : Entries :=
  let kept := Entries.putAll [] entries
  (kept.filter fun entry => (index? entry.1).isSome).insertionSort
      (fun a b => (index? a.1).getD 0 ≤ (index? b.1).getD 0) ++
    kept.filter fun entry => (index? entry.1).isNone

theorem ownOrder_singleton (entry : Scalar × Value) : ownOrder [entry] = [entry] := by
  cases found : index? entry.1 <;> simp [ownOrder, Entries.put, found]

/-- Where no key is there twice, and none is an index, an object keeps the order. -/
theorem ownOrder_of_noIndex {entries : Entries}
    (keys : ∀ entry ∈ entries, ∃ name, entry.1 = .str name)
    (distinct : (entries.map Prod.fst).Nodup) (noIndex : ∀ entry ∈ entries, index? entry.1 = none) :
    ownOrder entries = entries := by
  have kept : Entries.putAll [] entries = entries := Entries.putAll_of_distinct keys distinct
  have indexes : entries.filter (fun entry => (index? entry.1).isSome) = [] :=
    List.filter_eq_nil_iff.mpr fun entry member => by simp [noIndex entry member]
  have others : entries.filter (fun entry => (index? entry.1).isNone) = entries :=
    List.filter_eq_self.mpr fun entry member => by simp [noIndex entry member]
  rw [ownOrder, kept, indexes, others]
  rfl

/-! ## Expressions -/

/-- What is open around an expression: a list or an object, with what has been read of it in
reverse, and the key that the expression belongs to. -/
inductive Frame where
  | list (done : List Value)
  | entry (done : Entries) (key : String)

/-- Where the reader of an expression stands. -/
inductive Stand where
  | value (frames : List Frame)
  | key (frames : List Frame) (done : Entries)
  | colon (frames : List Frame) (done : Entries) (key : String)
  | behind (frames : List Frame) (v : Value)

/-- An object from its entries in reverse. -/
def object (done : Entries) : Value := .map (ownOrder done.reverse)

/-- One token more; a comma may stand behind the last item and the last entry, too. -/
def take? : Stand → Token → Option Stand
  | .value frames, .word text => (scalar? text).map fun a => .behind frames (.atom a)
  | .value frames, .sign '[' => some (.value (.list [] :: frames))
  | .value frames, .sign '\x7b' => some (.key frames [])
  | .value (.list done :: frames), .sign ']' => some (.behind frames (.list done.reverse))
  | .key frames done, .word text => (key? text).map (.colon frames done)
  | .key frames done, .sign '\x7d' => some (.behind frames (object done))
  | .colon frames done key, .sign ':' => some (.value (.entry done key :: frames))
  | .behind (.list done :: frames) v, .sign ',' => some (.value (.list (v :: done) :: frames))
  | .behind (.list done :: frames) v, .sign ']' =>
    some (.behind frames (.list (v :: done).reverse))
  | .behind (.entry done key :: frames) v, .sign ',' =>
    some (.key frames ((.str key, v) :: done))
  | .behind (.entry done key :: frames) v, .sign '\x7d' =>
    some (.behind frames (object ((.str key, v) :: done)))
  | _, _ => none

/-- The value of a text that is one expression. -/
def value? (text : String) : Option Value := do
  let tokens ← TypeText.tokens? .between text.toList
  match ← tokens.foldlM take? (.value []) with
  | .behind [] v => some v
  | _ => none

/-! ## Texts of expressions -/

/-- A text that is read as the value wherever an expression may stand. -/
def Denotes (text : List Char) (v : Value) : Prop :=
  ∃ tokens, Scans text tokens ∧
    ∀ frames, tokens.foldlM take? (.value frames) = some (.behind frames v)

theorem Denotes.value? {text : String} {v : Value} (denotes : Denotes text.toList v) :
    value? text = some v := by
  obtain ⟨tokens, scans, takes⟩ := denotes
  have cut := scans [] trivial
  rw [List.append_nil, TypeText.tokens?, Option.map_some, List.append_nil] at cut
  rw [Script.value?, cut, Option.bind_eq_bind, Option.bind_some, takes]
  rfl

theorem Denotes.word {text : List Char} {a : Scalar} (scans : Scans text [.word text])
    (value : scalar? text = some a) : Denotes text (.atom a) :=
  ⟨[.word text], scans, fun frames => by simp [take?, value]⟩

/-- What stands between the brackets of a list or an object: how reading goes on with what has
been read, in reverse, and what it makes when the bracket closes. -/
structure Listing (α : Type) where
  start : List Frame → List α → Stand
  whole : List α → Value
  closing : Char

def items : Listing Value where
  start := fun frames done => .value (.list done :: frames)
  whole := fun done => .list done.reverse
  closing := ']'

def members : Listing (Scalar × Value) where
  start := .key
  whole := object
  closing := '\x7d'

namespace Listing

variable {α : Type} {l : Listing α}

/-- A text of one part, behind which the next part or the end may stand. -/
def Part (l : Listing α) (text : List Char) (a : α) : Prop :=
  ∃ tokens, Scans text tokens ∧ ∀ frames done, ∃ stop,
    tokens.foldlM take? (l.start frames done) = some stop ∧
      take? stop (.sign ',') = some (l.start frames (a :: done)) ∧
      take? stop (.sign l.closing) = some (.behind frames (l.whole (a :: done)))

/-- The parts up to the last one, whatever has been read in front of them. -/
theorem exists_parts {texts : List String} {as : List α} (some : texts ≠ [])
    (each : List.Forall₂ (fun text a => l.Part text.toList a) texts as) :
    ∃ tokens, Scans (String.intercalate ", " texts).toList tokens ∧ ∀ frames done, ∃ stop,
      tokens.foldlM take? (l.start frames done) = .some stop ∧
        take? stop (.sign l.closing) = .some (.behind frames (l.whole (as.reverse ++ done))) := by
  induction each with
  | nil => exact absurd rfl some
  | @cons text a texts as first rest ih =>
      obtain ⟨tokens, scans, takes⟩ := first
      cases rest with
      | nil =>
          refine ⟨tokens, by simpa using scans, fun frames done => ?_⟩
          obtain ⟨stop, runs, -, closes⟩ := takes frames done
          exact ⟨stop, runs, closes⟩
      | @cons next b texts as =>
          obtain ⟨others, scansOthers, takesOthers⟩ := ih (by simp)
          have comma : Cuts ", ".toList [.sign ','] := (Cuts.sign (by decide)).append .blank
          have apart : ", ".toList ≠ [] ∧ StartsApart ", ".toList :=
            ⟨by simp, Or.inr (by decide : TypeText.isSign ',' = true)⟩
          refine ⟨tokens ++ [.sign ','] ++ others, ?_, fun frames done => ?_⟩
          · rw [String.intercalate_cons_cons, String.toList_append, String.toList_append]
            exact (scans.cuts apart comma).scans scansOthers
          · obtain ⟨stop, runs, goesOn, -⟩ := takes frames done
            obtain ⟨last, runsOn, closes⟩ := takesOthers frames (a :: done)
            refine ⟨last, ?_, ?_⟩
            · simp [List.foldlM_append, runs, goesOn, runsOn]
            · simpa using closes

end Listing

theorem Denotes.part {text : List Char} {v : Value} (denotes : Denotes text v) :
    items.Part text v := by
  obtain ⟨tokens, scans, takes⟩ := denotes
  exact ⟨tokens, scans, fun frames done => ⟨_, takes _, rfl, rfl⟩⟩

theorem Denotes.list {texts : List String} {vs : List Value}
    (each : List.Forall₂ (fun text v => Denotes text.toList v) texts vs) :
    Denotes ("[" ++ String.intercalate ", " texts ++ "]").toList (.list vs) := by
  have opens : Cuts "[".toList [.sign '['] := Cuts.sign (by decide)
  have closes : Cuts "]".toList [.sign ']'] := Cuts.sign (by decide)
  have apart : StartsApart "]".toList := Or.inr (by decide : TypeText.isSign ']' = true)
  rw [String.toList_append, String.toList_append, List.append_assoc]
  cases texts with
  | nil =>
      cases each
      exact ⟨_, (opens.append closes).toScans, fun frames => rfl⟩
  | cons text texts =>
      obtain ⟨tokens, scans, takes⟩ := Listing.exists_parts (l := items) (by simp)
        (each.imp fun text v denotes => denotes.part)
      refine ⟨_, opens.scans (scans.append apart closes.toScans), fun frames => ?_⟩
      obtain ⟨stop, runs, ends⟩ := takes frames []
      have start : take? (.value frames) (.sign '[') = some (items.start frames []) := rfl
      have last : take? stop (.sign ']') = some (.behind frames (.list vs)) := by
        simpa [items] using ends
      simp [List.foldlM_append, start, runs, last]

/-- A key and a value are an entry. -/
theorem Denotes.entry {key name : String} {text : String} {v : Value}
    (scans : Scans key.toList [.word key.toList]) (named : key? key.toList = some name)
    (denotes : Denotes text.toList v) :
    members.Part (key ++ ": " ++ text).toList (.str name, v) := by
  obtain ⟨tokens, scansText, takes⟩ := denotes
  have colon : Cuts ": ".toList [.sign ':'] := (Cuts.sign (by decide)).append .blank
  have apart : ": ".toList ≠ [] ∧ StartsApart ": ".toList :=
    ⟨by simp, Or.inr (by decide : TypeText.isSign ':' = true)⟩
  rw [String.toList_append, String.toList_append]
  refine ⟨_, (scans.cuts apart colon).scans scansText, fun frames done => ?_⟩
  refine ⟨.behind (.entry done name :: frames) v, ?_, rfl, rfl⟩
  have first : take? (members.start frames done) (.word key.toList) =
      some (.colon frames done name) := by
    simp [members, take?, named]
  have second : take? (.colon frames done name) (.sign ':') =
      some (.value (.entry done name :: frames)) := rfl
  simp [first, second, takes]

theorem Denotes.object {texts : List String} {entries : Entries} (some : texts ≠ [])
    (each : List.Forall₂ (fun text entry => members.Part text.toList entry) texts entries)
    (ordered : ownOrder entries = entries) :
    Denotes ("\x7b " ++ String.intercalate ", " texts ++ " \x7d").toList (.map entries) := by
  have opens : Cuts "\x7b ".toList [.sign '\x7b'] := (Cuts.sign (by decide)).append .blank
  have closes : Cuts " \x7d".toList [.sign '\x7d'] := Cuts.blank.append (.sign (by decide))
  have apart : StartsApart " \x7d".toList := Or.inl rfl
  rw [String.toList_append, String.toList_append, List.append_assoc]
  obtain ⟨tokens, scans, takes⟩ := Listing.exists_parts some each
  refine ⟨_, opens.scans (scans.append apart closes.toScans), fun frames => ?_⟩
  obtain ⟨stop, runs, ends⟩ := takes frames []
  have start : take? (.value frames) (.sign '\x7b') = .some (members.start frames []) := rfl
  have last : take? stop (.sign '\x7d') = .some (.behind frames (.map entries)) := by
    simpa [members, Script.object, ordered] using ends
  simp [List.foldlM_append, start, runs, last]

theorem Denotes.noEntries : Denotes "\x7b\x7d".toList (.map []) :=
  have cut : Cuts "\x7b\x7d".toList ([.sign '\x7b'] ++ [.sign '\x7d']) :=
    (Cuts.sign (by decide)).append (.sign (by decide))
  ⟨_, cut.toScans, fun frames => rfl⟩

/-! ## Words of literals -/

/-- A word of JSON is what JSON reads, with numbers of a script. -/
theorem scalar?_of_readPlain {text : String} {a : Scalar} (word : IsWord text)
    (read : Json.readPlain text.toList = .ok (a, [])) :
    scalar? text.toList = some (asNumber a) := by
  obtain ⟨nonempty, each⟩ := word
  cases chars : text.toList with
  | nil => exact absurd chars nonempty
  | cons c rest =>
      rw [chars] at each read
      have noQuote : ¬ isQuote c = true := by
        intro quote
        have word := each c List.mem_cons_self
        simp only [isQuote, Bool.or_eq_true, beq_iff_eq] at quote
        rcases quote with rfl | rfl <;> revert word <;> decide
      rw [scalar?, if_neg noQuote, read]

theorem denotes_word {text : String} {a : Scalar} (word : IsWord text)
    (read : Json.readPlain text.toList = .ok (a, [])) (same : asNumber a = a) :
    Denotes text.toList (.atom a) :=
  .word (.word word.1 word.2) (by rw [scalar?_of_readPlain word read, same])

theorem denotes_int {i : Int} (safe : i.natAbs < 2 ^ 53) :
    Denotes (toString i).toList (.int i) := by
  have few : (Nat.toDigits 10 i.natAbs).length ≤ Text.maxDigits := by
    refine ((Nat.length_toDigits_le_iff (by decide) (by decide)).mpr
      (safe.trans (by decide : 2 ^ 53 < 10 ^ 16))).trans (by decide)
  refine denotes_word (TypeText.isWord_int i) (Json.readPlain_int few) ?_
  rw [asNumber, Binary64.ofDecimal_equalsInt safe, if_pos rfl]

theorem denotes_float {x : Binary64} (finite : x.isInfinite = false)
    (number : x.isNotANumber = false) : Denotes x.text.toList (.atom (.float x)) :=
  denotes_word (TypeText.isWord_float x) (Json.readPlain_float finite number) rfl

theorem denotes_quote {s : String} (inLine : InLine s) :
    Denotes (Literal.quote s).toList (.str s) := by
  have scans := TypeText.Scans.quoted (by decide : TypeText.isQuote '\'' = true)
    (.flatMap fun c member => (TypeText.quoteChar_continues (inLine c member)).1)
  have read := string?_quote inLine
  have chars : (Literal.quote s).toList =
      '\'' :: (s.toList.flatMap Literal.escapeChar ++ ['\'']) := by
    rw [Literal.quote, String.toList_ofList, List.cons_append]
  rw [chars] at read ⊢
  exact .word scans (by rw [scalar?, if_pos (by decide), read, Option.map_some])

/-! ## Keys -/

theorem isIdentifierChar_of_isName {name : List Char} (plain : isName name = true) :
    ∀ c ∈ name, Naming.isIdentifierChar c = true := by
  cases name with
  | nil => simp
  | cons c rest =>
      rw [isName, Bool.and_eq_true, List.all_eq_true] at plain
      refine List.forall_mem_cons.mpr ⟨?_, plain.2⟩
      rw [Naming.isIdentifierChar, plain.1, Bool.true_or]

theorem raw_of_isName {name : String} (plain : isName name.toList = true) : Raw name :=
  fun c member => TypeText.isRaw_of_isWordChar (by decide)
    (TypeText.isWordChar_of_isIdentifierChar (isIdentifierChar_of_isName plain c member))

/-- What stands without quotes is a plain name, or one with a line feed behind it. -/
theorem isIdentifier_cases {name : List Char} (identifier : Naming.isIdentifier name = true) :
    isName name = true ∨ '\n' ∈ name ∧ string? name = none := by
  cases name with
  | nil => cases identifier
  | cons c rest =>
      rw [Naming.isIdentifier, Bool.and_eq_true, Bool.or_eq_true, Bool.and_eq_true,
        beq_iff_eq] at identifier
      obtain ⟨starts, all | ⟨last, -⟩⟩ := identifier
      · exact Or.inl (by rw [isName, starts, all]; rfl)
      · have noQuote : ¬ isQuote c = true := by
          intro quote
          simp only [isQuote, Bool.or_eq_true, beq_iff_eq] at quote
          rcases quote with rfl | rfl <;> revert starts <;> decide
        exact Or.inr ⟨List.mem_cons_of_mem _ (List.mem_of_getLast? last),
          by rw [string?, if_neg noQuote]⟩

/-- **A key** is read as the name if and only if the name may stand between apostrophes as it is,
and is not the one key that is no entry. -/
theorem key?_propertyKey_iff (name : String) :
    key? (Naming.propertyKey name).toList = some name ↔ Raw name ∧ name ≠ "__proto__" := by
  have filtered (text : List Char) : key? text = some name ↔
      (if isName text then some (String.ofList text) else string? text) = some name ∧
        name ≠ "__proto__" := by
    rw [key?, Option.filter_eq_some_iff, decide_eq_true_eq]
  rw [filtered, and_congr_left_iff]
  intro _
  unfold Naming.propertyKey
  split
  · rename_i identifier
    rcases isIdentifier_cases identifier with plain | ⟨broken, noString⟩
    · rw [if_pos plain, String.ofList_toList]
      exact ⟨fun _ => raw_of_isName plain, fun _ => rfl⟩
    · have noName : ¬ isName name.toList = true := fun plain =>
        (raw_of_isName plain _ broken).2.2 (Or.inl rfl)
      rw [if_neg noName, noString]
      exact ⟨nofun, fun raw => absurd (Or.inl rfl) (raw _ broken).2.2⟩
  · have chars : ("'" ++ name ++ "'").toList = '\'' :: (name.toList ++ ['\'']) := by
      simp [String.toList_append]
    have noName : ¬ isName ('\'' :: (name.toList ++ ['\''])) = true := by
      rw [isName, Bool.and_eq_true]
      exact fun both => absurd both.1 (by decide)
    rw [chars, if_neg noName]
    exact string?_raw_iff (by decide) name

theorem scans_propertyKey {name : String} (raw : Raw name) :
    Scans (Naming.propertyKey name).toList [.word (Naming.propertyKey name).toList] := by
  unfold Naming.propertyKey
  split
  · have word := TypeText.isWord_of_isIdentifier raw.inLine ‹_›
    exact .word word.1 word.2
  · have chars : ("'" ++ name ++ "'").toList = '\'' :: (name.toList ++ ['\'']) := by
      simp [String.toList_append]
    rw [chars]
    exact .quoted (by decide) (TypeText.continuesQuoted_raw raw)

end Script

/-! ## Values that come back -/

/-- A scalar that its literal is read as: a string in one line, an integer that every script can
tell from its neighbours, a finite number. -/
def Scalar.Writable : Scalar → Prop
  | .str s => InLine s
  | .int i => i.natAbs < 2 ^ 53
  | .float x => x.isInfinite = false ∧ x.isNotANumber = false
  | _ => True

instance : (a : Scalar) → Decidable a.Writable
  | .str s => inferInstanceAs (Decidable (InLine s))
  | .int i => inferInstanceAs (Decidable (i.natAbs < 2 ^ 53))
  | .float x => inferInstanceAs (Decidable (x.isInfinite = false ∧ x.isNotANumber = false))
  | .null | .bool _ | .date _ | .moment _ => inferInstanceAs (Decidable True)

/-- A value that its expression is read as. -/
inductive Value.Writable : Value → Prop
  | atom {a : Scalar} : a.Writable → Writable (.atom a)
  | list {items : List Value} : (∀ v ∈ items, Writable v) → Writable (.list items)
  | map {entries : Entries} :
      (∀ entry ∈ entries, ∀ name, entry.1 = .str name → Raw name ∧ name ≠ "__proto__") →
      (∀ entry ∈ entries, Writable entry.2) → Script.ownOrder entries = entries →
      Writable (.map entries)

open Config (HasLiteralForm checkLiteral checkLiteral_eq_ok_iff)
open Script (Denotes)

/-- What the settings and a script demand of the entries of a map. -/
theorem Value.Writable.entries {entries : Entries} (writable : (Value.map entries).Writable)
    (form : HasLiteralForm (.map entries)) :
    (∀ entry ∈ entries, ∃ name, entry.1 = .str name ∧ Raw name ∧ name ≠ "__proto__") ∧
      (∀ entry ∈ entries, HasLiteralForm entry.2 ∧ entry.2.Writable) ∧
      Script.ownOrder entries = entries := by
  cases writable with
  | map plain eachWritable ordered =>
  cases form with
  | map keys eachForm =>
  refine ⟨fun entry member => ?_, fun entry member => ?_, ordered⟩
  · obtain ⟨name, key⟩ := keys entry member
    exact ⟨name, key, plain entry member name key⟩
  · exact ⟨eachForm entry member, eachWritable entry member⟩

namespace Literal

theorem exists_itemTexts? {items : List Value}
    (each : ∀ v ∈ items, ∃ text, text? v = some text ∧ Denotes text.toList v) :
    ∃ texts, itemTexts? items = some texts ∧
      List.Forall₂ (fun text v => Denotes text.toList v) texts items := by
  induction items with
  | nil => exact ⟨[], rfl, .nil⟩
  | cons v rest ih =>
      obtain ⟨text, written, denotes⟩ := each v List.mem_cons_self
      obtain ⟨texts, later, read⟩ := ih fun w member => each w (List.mem_cons_of_mem _ member)
      exact ⟨text :: texts, by rw [itemTexts?, written, later]; rfl, .cons denotes read⟩

theorem exists_entryTexts? {entries : Entries}
    (keys : ∀ entry ∈ entries, ∃ name, entry.1 = .str name ∧ Raw name ∧ name ≠ "__proto__")
    (each : ∀ entry ∈ entries, ∃ text, text? entry.2 = some text ∧ Denotes text.toList entry.2) :
    ∃ texts, entryTexts? entries = some texts ∧
      List.Forall₂ (fun text entry => Script.members.Part text.toList entry) texts entries := by
  induction entries with
  | nil => exact ⟨[], rfl, .nil⟩
  | cons entry rest ih =>
      obtain ⟨k, v⟩ := entry
      obtain ⟨name, rfl, raw, other⟩ := keys _ List.mem_cons_self
      obtain ⟨text, written, denotes⟩ := each _ List.mem_cons_self
      obtain ⟨texts, later, read⟩ := ih (fun e member => keys e (List.mem_cons_of_mem _ member))
        fun e member => each e (List.mem_cons_of_mem _ member)
      have entryRead := denotes.entry (Script.scans_propertyKey raw)
        ((Script.key?_propertyKey_iff name).mpr ⟨raw, other⟩)
      exact ⟨_, by rw [entryTexts?, written, later]; rfl, .cons entryRead read⟩

/-- The literal of a writable value stands for the value wherever an expression may stand. -/
theorem exists_text? {v : Value} (form : HasLiteralForm v) (writable : v.Writable) :
    ∃ text, text? v = some text ∧ Denotes text.toList v := by
  induction v with
  | atom a =>
      cases writable with
      | atom scalar =>
      cases form with
      | atom noTime =>
      cases a with
      | str s => exact ⟨_, rfl, Script.denotes_quote scalar⟩
      | int i => exact ⟨_, rfl, Script.denotes_int scalar⟩
      | float x => exact ⟨_, rfl, Script.denotes_float scalar.1 scalar.2⟩
      | null => exact ⟨"null", rfl, Script.denotes_word (by decide) (by rfl) rfl⟩
      | bool b =>
          cases b with
          | true => exact ⟨"true", rfl, Script.denotes_word (by decide) (by rfl) rfl⟩
          | false => exact ⟨"false", rfl, Script.denotes_word (by decide) (by rfl) rfl⟩
      | date d => exact absurd trivial noTime
      | moment m => exact absurd trivial noTime
  | list items ih =>
      cases writable with
      | list eachWritable =>
      cases form with
      | list eachForm =>
      obtain ⟨texts, written, read⟩ := exists_itemTexts? fun v member =>
        ih v member (eachForm v member) (eachWritable v member)
      exact ⟨_, by rw [text?, written]; rfl, .list read⟩
  | map entries ih =>
      obtain ⟨keys, each, ordered⟩ := writable.entries form
      obtain ⟨texts, written, read⟩ := exists_entryTexts? keys fun entry member =>
        ih entry member (each entry member).1 (each entry member).2
      rw [text?]
      cases read with
      | nil => exact ⟨_, rfl, .noEntries⟩
      | cons first later =>
          exact ⟨_, by rw [written]; rfl, .object (by simp) (.cons first later) ordered⟩

/-- **Options come back from the code.**  A value that the settings admit has a literal, and if
it is writable, a script reads the literal as the value, and each entry of an object by itself as
the entry.  A single string is read back if and only if it is in one line, a single key if and
only if it may stand between apostrophes as it is, and is not `__proto__`. -/
theorem text?_denotes {place : String} {v : Value} (checked : checkLiteral place v = .ok ())
    (writable : v.Writable) :
    (∃ text, text? v = some text ∧ Script.value? text = some v) ∧
      (∀ entries, v = .map entries → ∃ texts, entryTexts? entries = some texts ∧
        List.Forall₂ (fun text entry =>
          Script.value? ("\x7b " ++ text ++ " \x7d") = some (.map [entry])) texts entries) ∧
      (∀ s, Script.string? (quote s).toList = some s ↔ InLine s) ∧
      ∀ name, Script.key? (Naming.propertyKey name).toList = some name ↔
        Raw name ∧ name ≠ "__proto__" := by
  have form := (checkLiteral_eq_ok_iff v place).mp checked
  refine ⟨?_, ?_, Script.string?_quote_iff, Script.key?_propertyKey_iff⟩
  · obtain ⟨text, written, denotes⟩ := exists_text? form writable
    exact ⟨text, written, denotes.value?⟩
  · rintro entries rfl
    obtain ⟨keys, each, -⟩ := writable.entries form
    obtain ⟨texts, written, read⟩ := exists_entryTexts? keys fun entry member =>
      exists_text? (each entry member).1 (each entry member).2
    refine ⟨texts, written, read.imp fun text entry part => ?_⟩
    have parts : List.Forall₂ (fun text entry => Script.members.Part text.toList entry) [text]
        [entry] := .cons part .nil
    have single := Denotes.object (by simp) parts (Script.ownOrder_singleton entry)
    rw [String.intercalate_singleton] at single
    exact single.value?

/-- Options with a key that needs quotes, a string with an apostrophe and a double. -/
def sampleOptions : Entries :=
  [(.str "dedupingInterval", .int 500),
    (.str "fallback-data", .list [.str "it's", .null, .atom (.float ⟨0xbff8000000000000⟩)])]

theorem text?_denotes_sample : checkLiteral "swr.options" (.map sampleOptions) = .ok () ∧
    text? (.map sampleOptions) =
      some "\x7b dedupingInterval: 500, 'fallback-data': ['it\\'s', null, -1.5] \x7d" ∧
    ∃ text, text? (.map sampleOptions) = some text ∧
      Script.value? text = some (.map sampleOptions) := by
  have checked : checkLiteral "swr.options" (.map sampleOptions) = .ok () := by rfl
  have keys : ∀ entry ∈ sampleOptions, ∃ name, entry.1 = .str name ∧ Raw name ∧
      name ≠ "__proto__" := by
    intro entry member
    rcases List.mem_pair.mp member with rfl | rfl <;> exact ⟨_, rfl, by decide⟩
  have ordered : Script.ownOrder sampleOptions = sampleOptions :=
    Script.ownOrder_of_noIndex (fun entry member => (keys entry member).imp fun _ key => key.1)
      (by decide) (by decide)
  have writable : (Value.map sampleOptions).Writable := by
    refine .map (fun entry member => ?_) (fun entry member => ?_) ordered
    · obtain ⟨name, key, plain⟩ := keys entry member
      intro other same
      cases key.symm.trans same
      exact plain
    · rcases List.mem_pair.mp member with rfl | rfl
      · exact .atom (by decide)
      · refine .list fun v inside => ?_
        simp only [List.mem_cons, List.not_mem_nil, or_false] at inside
        rcases inside with rfl | rfl | rfl <;> exact .atom (by decide)
  exact ⟨checked, by decide, (text?_denotes checked writable).1⟩

/-- **An apostrophe in a key, or the end of a line in a string, breaks the options**, and a
backslash in a key makes another key of it. -/
theorem text?_misread :
    (checkLiteral "swr.options" (.str "a\nb") = .ok () ∧
      text? (.str "a\nb") = some "'a\nb'" ∧ Script.value? "'a\nb'" = none) ∧
    (checkLiteral "swr.options" (.map [(.str "it's", .null)]) = .ok () ∧
      text? (.map [(.str "it's", .null)]) = some "\x7b 'it's': null \x7d" ∧
      Script.value? "\x7b 'it's': null \x7d" = none) ∧
    (checkLiteral "swr.options" (.map [(.str "a\\b", .null)]) = .ok () ∧
      text? (.map [(.str "a\\b", .null)]) = some "\x7b 'a\\b': null \x7d" ∧
      Script.value? "\x7b 'a\\b': null \x7d" =
        some (.map [(.str (String.ofList ['a', Char.ofNat 8]), .null)])) := by
  decide

end Literal

end ClientForge
