/-
# ClientForge.Proofs.Reference.Lookup -- the node at a place of a document

A place is one token for every step on the way to it: the key of a member, or the position of
an item in decimal digits (`Leads`).  A fragment writes a slash in front of every token, and in
a token a tilde and a slash as escapes (`fragment`).

Reading a fragment gives its tokens back, whatever they are (`keys_fragment`).  An escaped token
has no slash, so the steps are cut where they were joined; and the slashes are put back first, so
a tilde that was escaped in front of a one is not taken for an escape (`unescape_escape`).

A look-up knows one container, the object.  So it is exact on every way through objects, and a
way through a list ends there, although the list has the item (`find_refuses_item`).
-/
import ClientForge.Proofs.Reference.SchemaName

namespace ClientForge.Pointer

set_option autoImplicit false

/-- One character of a token. -/
def escapeChar (c : Char) : List Char :=
  if c = '~' then ['~', '0'] else if c = '/' then ['~', '1'] else [c]

/-- A token as a step of a fragment. -/
def escape (token : List Char) : List Char := token.flatMap escapeChar

/-- The steps of a fragment, each behind a slash. -/
def steps (tokens : List String) : List Char :=
  tokens.flatMap fun token => '/' :: escape token.toList

/-- The fragment that writes these tokens. -/
def fragment (tokens : List String) : String := String.ofList (steps tokens)

/-- The node that tokens lead to: a key leads to the member of an object, the digits of a
position to the item of a list. -/
inductive Leads : Value → List String → Value → Prop
  | whole (v : Value) : Leads v [] v
  | member {entries : Entries} {key : String} {v w : Value} {rest : List String} :
      Entries.get? key entries = some v → Leads v rest w → Leads (.map entries) (key :: rest) w
  | item {items : List Value} {position : Nat} {v w : Value} {rest : List String} :
      items[position]? = some v → Leads v rest w →
      Leads (.list items) (toString position :: rest) w

/-- The way of these tokens comes to a list and goes on from it. -/
inductive PassesList : Value → List String → Prop
  | here {items : List Value} {token : String} {rest : List String} :
      PassesList (.list items) (token :: rest)
  | behind {entries : Entries} {key : String} {v : Value} {rest : List String} :
      Entries.get? key entries = some v → PassesList v rest →
      PassesList (.map entries) (key :: rest)

/-! ## Tokens and steps -/

theorem replacePair_cons_of_ne {first c : Char} (second new : Char) (ne : c ≠ first)
    (rest : List Char) : Text.replacePair first second new (c :: rest) =
      c :: Text.replacePair first second new rest := by
  cases rest with
  | nil => rfl
  | cons d rest => rw [Text.replacePair, if_neg fun both => ne both.1]

/-- With the slashes back in their places, only the tildes are escaped. -/
theorem replacePair_escape (token : List Char) :
    Text.replacePair '~' '1' '/' (escape token) =
      token.flatMap fun c => if c = '~' then ['~', '0'] else [c] := by
  induction token with
  | nil => rfl
  | cons c rest ih =>
      rw [escape, List.flatMap_cons, List.flatMap_cons, ← escape, ← ih, escapeChar]
      by_cases tilde : c = '~'
      · rw [if_pos tilde, if_pos tilde, List.cons_append, List.singleton_append,
          Text.replacePair, if_neg (by decide), replacePair_cons_of_ne _ _ (by decide)]
        rfl
      · rw [if_neg tilde, if_neg tilde, List.singleton_append]
        by_cases slash : c = '/'
        · rw [if_pos slash, List.cons_append, List.singleton_append, Text.replacePair,
            if_pos ⟨rfl, rfl⟩, slash]
        · rw [if_neg slash, List.singleton_append, replacePair_cons_of_ne _ _ tilde]

/-- **Unescaping inverts escaping**, for every token. -/
theorem unescape_escape (token : List Char) : unescape (escape token) = token := by
  rw [unescape, replacePair_escape]
  induction token with
  | nil => rfl
  | cons c rest ih =>
      rw [List.flatMap_cons]
      by_cases tilde : c = '~'
      · rw [if_pos tilde, List.cons_append, List.singleton_append, Text.replacePair,
          if_pos ⟨rfl, rfl⟩, ih, tilde]
      · rw [if_neg tilde, List.singleton_append, replacePair_cons_of_ne _ _ tilde, ih]

theorem slash_not_mem_escape (token : List Char) : '/' ∉ escape token := by
  intro member
  obtain ⟨c, -, inside⟩ := List.mem_flatMap.mp member
  unfold escapeChar at inside
  split at inside
  · revert inside
    decide
  · split at inside
    · revert inside
      decide
    · rename_i other
      exact other (List.mem_singleton.mp inside).symm

/-- Steps are cut where they were joined. -/
theorem splitOn_steps (token : String) (rest : List String) :
    Text.splitOn '/' (escape token.toList ++ steps rest) =
      (token :: rest).map fun token => escape token.toList := by
  induction rest generalizing token with
  | nil =>
      rw [steps, List.flatMap_nil, List.append_nil]
      exact Text.splitOn_of_not_mem (slash_not_mem_escape _)
  | cons next rest ih =>
      rw [steps, List.flatMap_cons, ← steps, List.cons_append, Text.splitOn_append,
        Text.splitOn_of_not_mem (slash_not_mem_escape _), ih next]
      rfl

/-- A fragment is read as the tokens that it writes. -/
theorem keys_fragment {tokens : List String} (some : tokens ≠ []) :
    keys (fragment tokens).toList = tokens := by
  cases tokens with
  | nil => exact absurd rfl some
  | cons token rest =>
      have cut := splitOn_steps token rest
      have same (t : String) : String.ofList (unescape (escape t.toList)) = t := by
        rw [unescape_escape, String.ofList_toList]
      rw [fragment, String.toList_ofList, steps, List.flatMap_cons, ← steps, List.cons_append,
        keys]
      simp only [cut, List.map_map, Function.comp_def, same, List.map_id']

/-! ## Look-ups -/

/-- Looking a fragment up is following its tokens. -/
theorem find_fragment (document : Value) (tokens : List String) :
    find document (fragment tokens) =
      match follow document tokens with
      | some v => .ok v
      | none => reject (.danglingPointer (fragment tokens)) := by
  cases tokens with
  | nil =>
      rw [follow]
      rfl
  | cons token rest =>
      have given : ¬ (fragment (token :: rest) = "" ∨ fragment (token :: rest) = "#") := by
        have begins : (fragment (token :: rest)).toList =
            '/' :: (escape token.toList ++ steps rest) := String.toList_ofList
        rintro (same | same) <;> rw [same] at begins <;> cases begins
      have read := keys_fragment (List.cons_ne_nil token rest)
      unfold find
      cases found : follow document (token :: rest) with
      | none => rw [if_neg given, read, found]
      | some v => rw [if_neg given, read, found]

/-- All fragments of tokens are looked up. -/
theorem partAt_fragment (document : Value) (tokens : List String) :
    Resolver.partAt document (fragment tokens) = find document (fragment tokens) := by
  refine if_neg fun both => ?_
  cases tokens with
  | nil => exact both.1 rfl
  | cons token rest => exact both.2 (by rw [fragment, String.toList_ofList]; rfl)

section Follow

variable {document v w : Value} {tokens : List String}

theorem follow_whole (v : Value) : follow v [] = some v := by
  cases v <;> rfl

theorem leads_of_follow (found : follow document tokens = some w) : Leads document tokens w := by
  induction tokens generalizing document with
  | nil =>
      rw [follow_whole] at found
      cases found
      exact .whole _
  | cons token rest ih =>
      cases document with
      | atom a => cases found
      | list items => cases found
      | map entries =>
          rw [follow] at found
          split at found
          · exact .member ‹_› (ih found)
          · cases found

/-- Nothing is found behind a list. -/
theorem follow_of_passesList (passes : PassesList document tokens) :
    follow document tokens = none := by
  induction passes with
  | here => rfl
  | behind here _ ih =>
      rw [follow, here]
      exact ih

theorem follow_of_leads (leads : Leads document tokens w)
    (objects : ¬ PassesList document tokens) : follow document tokens = some w := by
  induction leads with
  | whole v => exact follow_whole v
  | member here _ ih =>
      rw [follow, here]
      exact ih fun passes => objects (.behind here passes)
  | item _ _ _ => exact absurd .here objects

end Follow

/-- **Look-ups by place.**  Escaped tokens are read back, and the empty fragment is the whole
document.  Where the way goes through objects, a look-up gives exactly the node that the tokens
lead to, and is refused exactly where they lead to none; from a list it goes no further. -/
theorem find_leads (document : Value) (tokens : List String) :
    (∀ token, unescape (escape token) = token) ∧
      fragment [] = "" ∧ find document "" = .ok document ∧
      Resolver.partAt document (fragment tokens) = find document (fragment tokens) ∧
      (Cause.danglingPointer (fragment tokens)).kind = .unresolvedReference ∧
      (¬ PassesList document tokens →
        (∀ v, find document (fragment tokens) = .ok v ↔ Leads document tokens v) ∧
          (find document (fragment tokens) = reject (.danglingPointer (fragment tokens)) ↔
            ∀ v, ¬ Leads document tokens v)) ∧
      (PassesList document tokens →
        find document (fragment tokens) = reject (.danglingPointer (fragment tokens))) := by
  refine ⟨unescape_escape, rfl, rfl, partAt_fragment document tokens, rfl,
    fun objects => ?_, fun passes => ?_⟩
  · have leads (v : Value) : Leads document tokens v ↔ follow document tokens = some v :=
      ⟨fun leads => follow_of_leads leads objects, leads_of_follow⟩
    simp only [leads, find_fragment]
    cases follow document tokens <;> simp [reject]
  · rw [find_fragment, follow_of_passesList passes]

/-- A document whose keys have a tilde, slashes and nothing at all in them. -/
def tildeDocument : Value :=
  .object [("paths", .object [("/pets/\x7bid\x7d", .object [("~1", .int 1), ("", .int 2)])])]

theorem find_leads_tilde :
    fragment ["paths", "/pets/\x7bid\x7d", "~1"] = "/paths/~1pets~1\x7bid\x7d/~01" ∧
      ¬ PassesList tildeDocument ["paths", "/pets/\x7bid\x7d", "~1"] ∧
      Leads tildeDocument ["paths", "/pets/\x7bid\x7d", "~1"] (.int 1) ∧
      ∀ v, ¬ Leads tildeDocument ["paths", "/pets/\x7bid\x7d", "~"] v := by
  have objects (last : String) :
      ¬ PassesList tildeDocument ["paths", "/pets/\x7bid\x7d", last] := by
    intro passes
    cases passes with
    | behind here passes =>
    cases here
    cases passes with
    | behind here passes =>
    cases here
    cases passes with
    | behind here passes => cases passes
  obtain ⟨-, -, -, -, -, exact, -⟩ :=
    find_leads tildeDocument ["paths", "/pets/\x7bid\x7d", "~1"]
  obtain ⟨-, -, -, -, -, exact', -⟩ :=
    find_leads tildeDocument ["paths", "/pets/\x7bid\x7d", "~"]
  refine ⟨by decide, objects "~1", ((exact (objects _)).1 _).mp ?_, (exact' (objects _)).2.mp ?_⟩
  · rw [find_fragment]
    rfl
  · rw [find_fragment]
    rfl

/-- **The items of a list are not looked up.** -/
theorem find_refuses_item :
    ∃ document tokens v, Leads document tokens v ∧ fragment tokens = "/tags/0" ∧
      find document (fragment tokens) = reject (.danglingPointer "/tags/0") := by
  have first : [Value.str "pets"][0]? = some (.str "pets") := rfl
  refine ⟨.object [("tags", .list [.str "pets"])], ["tags", "0"], .str "pets",
    .member rfl (.item first (.whole _)), by decide, by decide⟩

end ClientForge.Pointer
