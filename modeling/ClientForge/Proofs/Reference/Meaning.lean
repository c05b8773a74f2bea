/-
# ClientForge.Proofs.Reference.Meaning -- what a reference says in the file it is written in

A reference that is written in a file means a part of a file (`Sources.meaning?`): a bare
fragment a part of that same file, and an address a part of the file that it leads to from the
folder of that file.  `Sources.Denotes` inlines by these meanings.  It knows in which file it
is, and a reference is left as it stands where what it means is being expanded, whatever the
text that has led there.

The resolver asks for less.  It takes a bare fragment to mean the document, in whatever file it
is met, and it tells references apart by their texts.  Both are the same where bare fragments
are met in the document only and a text means one thing in all files (`Unmistakable`), and one
thing is written in one way (`Distinct`); then a document resolves to what it denotes
(`resolve_denotes`).  Where a file refers to a part of itself, it need not
(`resolve_mistakes`).
-/
import ClientForge.Proofs.Reference.Reaching

namespace ClientForge.Resolver

set_option autoImplicit false

open Files

/-- What a reference means: a part of a file, or of the document itself. -/
structure Target where
  file : Option Place
  fragment : String
  deriving DecidableEq

namespace Sources

section Meaning

variable (sources : Sources) (start : Path)

/-- The folder of a file; the document lies where its references start from. -/
def folderOf (start : Path) : Option Place → Path
  | none => start
  | some place => .ofPlace place.dropLast

/-- The file that an address leads to from a file; the empty address is that file. -/
def fileAt? (file : Option Place) (address : String) : Option (Option Place) :=
  if address = "" then some file
  else
    let path := (folderOf start file).join (.ofText address)
    if path.hasNull then none else some (some (path.place sources.workdir))

/-- What a reference means that is written in a file. -/
def meaning? (file : Option Place) (reference : String) : Option Target := do
  let (address, fragment) ← (Address.withoutFragment reference).toOption
  return ⟨← sources.fileAt? start file address, fragment⟩

/-- What is written in a file. -/
def contentOf? : Option Place → Option Value
  | none => some sources.root
  | some place => (sources.document? place).map .map

/-- The part of a file that is meant. -/
def partOf? (t : Target) : Option Value := do
  let content ← sources.contentOf? t.file
  (partAt content t.fragment).toOption

/-- What a value that is written in a file denotes while the parts in a list are being
expanded.  `again` allows to expand a part inside itself. -/
inductive Denotes (again : Prop) : Option Place → List Target → Value → Value → Prop
  | atom {file : Option Place} {targets : List Target} (a : Scalar) :
      Denotes again file targets (.atom a) (.atom a)
  | list {file : Option Place} {targets : List Target} {items items' : List Value} :
      items.length = items'.length →
      (∀ v w, (v, w) ∈ items.zip items' → Denotes again file targets v w) →
      Denotes again file targets (.list items) (.list items')
  | map {file : Option Place} {targets : List Target} {entries entries' : Entries} :
      Entries.get? "$ref" entries = none →
      entries.map Prod.fst = entries'.map Prod.fst →
      (∀ entry entry', (entry, entry') ∈ entries.zip entries' →
        Denotes again file targets entry.2 entry'.2) →
      Denotes again file targets (.map entries) (.map entries')
  | active {file : Option Place} {targets : List Target} {entries : Entries}
      {reference : String} {t : Target} :
      Entries.get? "$ref" entries = some (.str reference) →
      sources.meaning? start file reference = some t → t ∈ targets →
      Denotes again file targets (.map entries) (.map entries)
  | alone {file : Option Place} {targets : List Target} {entries : Entries}
      {reference : String} {t : Target} {part w : Value} :
      Entries.get? "$ref" entries = some (.str reference) →
      sources.meaning? start file reference = some t → (t ∈ targets → again) →
      entries.length = 1 → sources.partOf? t = some part →
      Denotes again t.file (t :: targets) (tagged reference part) w →
      Denotes again file targets (.map entries) w
  | merged {file : Option Place} {targets : List Target} {entries fields beside : Entries}
      {reference : String} {t : Target} {part : Value} :
      Entries.get? "$ref" entries = some (.str reference) →
      sources.meaning? start file reference = some t → (t ∈ targets → again) →
      entries.length ≠ 1 → sources.partOf? t = some part →
      Denotes again t.file (t :: targets) (tagged reference part) (.map fields) →
      (siblings entries).map Prod.fst = beside.map Prod.fst →
      (∀ entry entry', (entry, entry') ∈ (siblings entries).zip beside →
        Denotes again file targets entry.2 entry'.2) →
      Denotes again file targets (.map entries) (.map (Entries.putAll fields beside))

/-- The references that are met, each with the file that it is written in. -/
inductive Meets : Option Place → String → Prop
  | document {reference : String} : sources.root.Mentions reference → Meets none reference
  | part {file : Option Place} {reference other : String} {t : Target} {part : Value} :
      Meets file reference → sources.meaning? start file reference = some t →
      sources.partOf? t = some part → part.Mentions other → Meets t.file other

/-- Bare fragments are met in the document only, and a text means one thing in all files in
which it is met. -/
structure Unmistakable : Prop where
  home : ∀ file reference, sources.Meets start file reference → IsLocal reference → file = none
  same : ∀ file file' reference, sources.Meets start file reference →
    sources.Meets start file' reference →
    sources.meaning? start file reference = sources.meaning? start file' reference

/-- One thing is written in one way, wherever it is met. -/
def Distinct : Prop :=
  ∀ file file' reference reference' t, sources.Meets start file reference →
    sources.Meets start file' reference' → sources.meaning? start file reference = some t →
    sources.meaning? start file' reference' = some t → reference = reference'

end Meaning

section Follows

variable {sources : Sources} {start base inner : Path} {file : Option Place} {v w raw : Value}
  {active : List String} {targets : List Target} {reference : String} {t : Target}

theorem documentOf?_eq_some_iff {address : String} {content : Value}
    (home : address = "" → file = none) :
    sources.documentOf? address (folderOf start file) = some (content, inner) ↔
      ∃ there, sources.fileAt? start file address = some there ∧
        sources.contentOf? there = some content ∧ inner = folderOf start there := by
  unfold documentOf? fileAt?
  by_cases here : address = ""
  · rw [if_pos here, if_pos here]
    obtain rfl := home here
    constructor
    · rintro ⟨⟩
      exact ⟨none, rfl, rfl, rfl⟩
    · rintro ⟨_, ⟨⟩, ⟨⟩, rfl⟩
      rfl
  · rw [if_neg here, if_neg here]
    dsimp only
    split
    · constructor
      · rintro ⟨⟩
      · rintro ⟨_, ⟨⟩, -⟩
    · constructor
      · intro found
        obtain ⟨entries, stored, same⟩ := Option.map_eq_some_iff.mp found
        cases same
        exact ⟨_, rfl, Option.map_eq_some_iff.mpr ⟨entries, stored, rfl⟩, rfl⟩
      · rintro ⟨_, ⟨⟩, found, rfl⟩
        obtain ⟨entries, stored, rfl⟩ := Option.map_eq_some_iff.mp found
        exact Option.map_eq_some_iff.mpr ⟨entries, stored, rfl⟩

theorem meaning?_eq_some_iff :
    sources.meaning? start file reference = some t ↔
      ∃ address, Address.withoutFragment reference = .ok (address, t.fragment) ∧
        sources.fileAt? start file address = some t.file := by
  simp only [meaning?, Option.bind_eq_bind, Option.bind_eq_some_iff, Prod.exists,
    toOption_eq_some_iff, Option.pure_def, Option.some.injEq]
  constructor
  · rintro ⟨address, fragment, cut, there, leads, rfl⟩
    exact ⟨address, cut, leads⟩
  · rintro ⟨address, cut, leads⟩
    exact ⟨address, t.fragment, cut, t.file, leads, rfl⟩

theorem partOf?_eq_some_iff :
    sources.partOf? t = some raw ↔
      ∃ content, sources.contentOf? t.file = some content ∧
        partAt content t.fragment = .ok raw := by
  simp only [partOf?, Option.bind_eq_bind, Option.bind_eq_some_iff, toOption_eq_some_iff]

/-- Where bare fragments are met in the document only, references lead to what they mean. -/
theorem target?_eq_some_iff {part : Value} (home : IsLocal reference → file = none) :
    sources.target? reference (folderOf start file) = some (part, inner) ↔
      ∃ t raw, sources.meaning? start file reference = some t ∧
        sources.partOf? t = some raw ∧ part = tagged reference raw ∧
        inner = folderOf start t.file := by
  simp only [target?, Option.bind_eq_bind, Option.bind_eq_some_iff, Prod.exists,
    toOption_eq_some_iff]
  constructor
  · rintro ⟨address, fragment, cut, content, folder, load, raw, pick, found⟩
    cases found
    obtain ⟨there, leads, written, rfl⟩ :=
      (documentOf?_eq_some_iff fun here => home ⟨fragment, here ▸ cut⟩).mp load
    exact ⟨⟨there, fragment⟩, raw, meaning?_eq_some_iff.mpr ⟨address, cut, leads⟩,
      partOf?_eq_some_iff.mpr ⟨content, written, pick⟩, rfl, rfl⟩
  · rintro ⟨t, raw, means, found, rfl, rfl⟩
    obtain ⟨address, cut, leads⟩ := meaning?_eq_some_iff.mp means
    obtain ⟨content, written, pick⟩ := partOf?_eq_some_iff.mp found
    refine ⟨address, t.fragment, cut, content, _, ?_, raw, pick, rfl⟩
    exact (documentOf?_eq_some_iff fun here => home ⟨t.fragment, here ▸ cut⟩).mpr
      ⟨t.file, leads, written, rfl⟩

/-- The references being expanded are texts of the parts being expanded, and all that a value
mentions is met in its file. -/
structure Follows (sources : Sources) (start : Path) (file : Option Place)
    (active : List String) (targets : List Target) (v : Value) : Prop where
  meets : ∀ reference, v.Mentions reference → sources.Meets start file reference
  texts : List.Forall₂ (fun reference t => ∃ other, sources.Meets start other reference ∧
    sources.meaning? start other reference = some t) active targets

namespace Follows

theorem document (sources : Sources) (start : Path) :
    sources.Follows start none [] [] sources.root :=
  ⟨fun _ mentions => .document mentions, .nil⟩

theorem part (follows : sources.Follows start file active targets w) (part : v.PartOf w) :
    sources.Follows start file active targets v :=
  ⟨fun reference mentions => follows.meets reference (mentions.whole part), follows.texts⟩

theorem opened (follows : sources.Follows start file active targets v)
    (mentions : v.Mentions reference) (means : sources.meaning? start file reference = some t)
    (found : sources.partOf? t = some raw) :
    sources.Follows start t.file (reference :: active) (t :: targets) (tagged reference raw) :=
  ⟨fun _ inside => .part (follows.meets reference mentions) means found (mentions_tagged inside),
    .cons ⟨file, follows.meets reference mentions, means⟩ follows.texts⟩

/-- A text that is being expanded means something that is being expanded. -/
theorem mem_targets (follows : sources.Follows start file active targets v)
    (clear : sources.Unmistakable start) (mentions : v.Mentions reference)
    (member : reference ∈ active) :
    ∃ t ∈ targets, sources.meaning? start file reference = some t := by
  obtain ⟨t, listed, other, there, means⟩ := exists_of_mem_right follows.texts.flip member
  refine ⟨t, listed, ?_⟩
  rw [clear.same _ _ _ (follows.meets reference mentions) there, means]

/-- What is being expanded is being expanded under this text. -/
theorem mem_active (follows : sources.Follows start file active targets v)
    (distinct : sources.Distinct start) (mentions : v.Mentions reference)
    (means : sources.meaning? start file reference = some t) (member : t ∈ targets) :
    reference ∈ active := by
  obtain ⟨other, listed, file', there, means'⟩ := exists_of_mem_right follows.texts member
  rwa [distinct _ _ _ _ t (follows.meets reference mentions) there means means']

end Follows

end Follows

end Sources

/-! ## Expansions and meanings -/

section Both

variable {sources : Sources} {start base : Path} {file : Option Place} {v w : Value}
  {active : List String} {targets : List Target} {again : Prop}

/-- What a value expands to it denotes. -/
theorem Expands.denotes (expands : Expands sources base active v w)
    (clear : sources.Unmistakable start) (distinct : again ∨ sources.Distinct start)
    (folder : base = Sources.folderOf start file)
    (follows : sources.Follows start file active targets v) :
    sources.Denotes start again file targets v w := by
  have settled : ∀ {file active targets v reference t},
      sources.Follows start file active targets v → v.Mentions reference → reference ∉ active →
      sources.meaning? start file reference = some t → t ∈ targets → again := by
    intro file active targets v reference t follows mentions inactive means member
    rcases distinct with again | distinct
    · exact again
    · exact absurd (follows.mem_active distinct mentions means member) inactive
  induction expands generalizing file targets with
  | atom a => exact .atom a
  | list length _ ih =>
      refine .list length fun v w member => ih v w member folder (follows.part ?_)
      exact .item (mem_of_mem_zip member) .refl
  | map free keys _ ih =>
      refine .map free keys fun entry entry' member =>
        ih entry entry' member folder (follows.part ?_)
      exact .entry (mem_of_mem_zip member) .refl
  | active refers active =>
      have mentions : Value.Mentions _ _ := ⟨_, .refl, refers⟩
      obtain ⟨t, member, means⟩ := follows.mem_targets clear mentions active
      exact .active refers means member
  | alone refers inactive single found _ ih =>
      subst folder
      have mentions : Value.Mentions _ _ := ⟨_, .refl, refers⟩
      obtain ⟨t, raw, means, there, rfl, rfl⟩ :=
        (Sources.target?_eq_some_iff (clear.home _ _ (follows.meets _ mentions))).mp found
      exact .alone refers means (settled follows mentions inactive means) single there
        (ih rfl (follows.opened mentions means there))
  | merged refers inactive several found _ keys _ ih each =>
      subst folder
      have mentions : Value.Mentions _ _ := ⟨_, .refl, refers⟩
      obtain ⟨t, raw, means, there, rfl, rfl⟩ :=
        (Sources.target?_eq_some_iff (clear.home _ _ (follows.meets _ mentions))).mp found
      refine .merged refers means (settled follows mentions inactive means) several there
        (ih rfl (follows.opened mentions means there)) keys fun entry entry' member => ?_
      refine each entry entry' member rfl (follows.part ?_)
      exact .entry (mem_of_mem_siblings (mem_of_mem_zip member)) .refl

/-- A value expands to what it denotes, if a part is never expanded inside itself. -/
theorem Sources.Denotes.expands (denotes : sources.Denotes start False file targets v w)
    (clear : sources.Unmistakable start) (distinct : sources.Distinct start)
    (follows : sources.Follows start file active targets v) :
    Expands sources (Sources.folderOf start file) active v w := by
  have inactive : ∀ {file active targets v reference t},
      sources.Follows start file active targets v → v.Mentions reference →
      sources.meaning? start file reference = some t → (t ∈ targets → False) →
      reference ∉ active := by
    intro file active targets v reference t follows mentions means fresh member
    obtain ⟨t', member', means'⟩ := follows.mem_targets clear mentions member
    obtain rfl : t = t' := Option.some.inj (means.symm.trans means')
    exact fresh member'
  induction denotes generalizing active with
  | atom a => exact .atom a
  | list length _ ih =>
      refine .list length fun v w member => ih v w member (follows.part ?_)
      exact .item (mem_of_mem_zip member) .refl
  | map free keys _ ih =>
      refine .map free keys fun entry entry' member => ih entry entry' member (follows.part ?_)
      exact .entry (mem_of_mem_zip member) .refl
  | active refers means member =>
      exact .active refers (follows.mem_active distinct ⟨_, .refl, refers⟩ means member)
  | alone refers means fresh single there _ ih =>
      have mentions : Value.Mentions _ _ := ⟨_, .refl, refers⟩
      have found := (Sources.target?_eq_some_iff
        (clear.home _ _ (follows.meets _ mentions))).mpr ⟨_, _, means, there, rfl, rfl⟩
      exact .alone refers (inactive follows mentions means fresh) single found
        (ih (follows.opened mentions means there))
  | merged refers means fresh several there _ keys _ ih each =>
      have mentions : Value.Mentions _ _ := ⟨_, .refl, refers⟩
      have found := (Sources.target?_eq_some_iff
        (clear.home _ _ (follows.meets _ mentions))).mpr ⟨_, _, means, there, rfl, rfl⟩
      refine .merged refers (inactive follows mentions means fresh) several found
        (ih (follows.opened mentions means there)) keys fun entry entry' member => ?_
      refine each entry entry' member (follows.part ?_)
      exact .entry (mem_of_mem_siblings (mem_of_mem_zip member)) .refl

end Both

/-- **A reference means what it says in its file.**  Let bare fragments be met in the document
only, and let a text mean one thing in all files in which it is met.  Then a document that
resolves does so to what it denotes: a reference becomes the part of the file that it means,
seen from the file in which it is written, and it is left as it stands only where this very
part is being expanded.

If moreover one thing is written in one way, then a document resolves exactly to what it
denotes when all references are told apart by what they mean and a part that is being expanded
is always left, and it does not resolve where it denotes nothing. -/
theorem resolve_denotes {files : FileTable} {document : Value} {base : Option Path}
    (clear : (Sources.within files document).Unmistakable (base.getD ⟨false, []⟩)) (w : Value) :
    ((∃ s, resolve files (.start document base) = (.ok w, s)) →
      (Sources.within files document).Denotes (base.getD ⟨false, []⟩) True none [] document w) ∧
    ((Sources.within files document).Distinct (base.getD ⟨false, []⟩) →
      ((∃ s, resolve files (.start document base) = (.ok w, s)) ↔
        (Sources.within files document).Denotes (base.getD ⟨false, []⟩) False none []
          document w)) := by
  have follows := Sources.Follows.document (Sources.within files document)
    (base.getD ⟨false, []⟩)
  refine ⟨fun run => ?_, fun distinct => ?_⟩
  · exact (resolve_iff_expands.mp run).denotes clear (Or.inl trivial) rfl follows
  · rw [resolve_iff_expands]
    constructor
    · intro expands
      exact expands.denotes clear (Or.inr distinct) rfl follows
    · intro denotes
      exact denotes.expands clear distinct follows

/-! ## References that can be listed -/

/-- A reference in a file, with what it means and the references in that. -/
structure Meeting where
  file : Option Place
  reference : String
  target : Target
  inside : List String

namespace Sources

/-- The list has the reference in this file. -/
def lists (met : List Meeting) (file : Option Place) (reference : String) : Bool :=
  met.any fun m => decide (m.file = file) && m.reference == reference

/-- The list has all references of the document, and with a reference all those of the part
that it means. -/
def closes (sources : Sources) (start : Path) (met : List Meeting) : Bool :=
  sources.root.references.all (lists met none) &&
    met.all fun m =>
      decide (sources.meaning? start m.file m.reference = some m.target) &&
        decide ((sources.partOf? m.target).map Value.references = some m.inside) &&
          m.inside.all (lists met m.target.file)

variable {sources : Sources} {start : Path} {met : List Meeting} {file : Option Place}
  {reference : String}

theorem exists_of_lists (listed : lists met file reference = true) :
    ∃ m ∈ met, m.file = file ∧ m.reference = reference := by
  obtain ⟨m, member, same⟩ := List.any_eq_true.mp listed
  obtain ⟨inFile, text⟩ := Bool.and_eq_true_iff.mp same
  exact ⟨m, member, of_decide_eq_true inFile, beq_iff_eq.mp text⟩

theorem Meets.listed (closes : sources.closes start met = true)
    (meets : sources.Meets start file reference) :
    ∃ m ∈ met, m.file = file ∧ m.reference = reference ∧
      sources.meaning? start file reference = some m.target := by
  obtain ⟨first, later⟩ := Bool.and_eq_true_iff.mp closes
  have entry : ∀ m ∈ met, (sources.meaning? start m.file m.reference = some m.target ∧
      (sources.partOf? m.target).map Value.references = some m.inside) ∧
        m.inside.all (lists met m.target.file) = true := by
    intro m member
    obtain ⟨both, inside⟩ := Bool.and_eq_true_iff.mp (List.all_eq_true.mp later m member)
    obtain ⟨means, found⟩ := Bool.and_eq_true_iff.mp both
    exact ⟨⟨of_decide_eq_true means, of_decide_eq_true found⟩, inside⟩
  have listed : lists met file reference = true := by
    induction meets with
    | document mentions => exact List.all_eq_true.mp first _ (mem_references mentions)
    | part _ means found mentions ih =>
        obtain ⟨m, member, rfl, rfl⟩ := exists_of_lists ih
        obtain ⟨⟨means', found'⟩, inside⟩ := entry m member
        obtain rfl := Option.some.inj (means.symm.trans means')
        rw [found] at found'
        have same := Option.some.inj found'
        exact List.all_eq_true.mp inside _ (same ▸ mem_references mentions)
  obtain ⟨m, member, rfl, rfl⟩ := exists_of_lists listed
  exact ⟨m, member, rfl, rfl, (entry m member).1.1⟩

/-- Whether references are unmistakable shows in a list of them. -/
theorem unmistakable_of_closes (closes : sources.closes start met = true)
    (home : ∀ m ∈ met, m.file = none ∨
      (Address.withoutFragment m.reference).toOption.map Prod.fst ≠ some "")
    (same : ∀ m ∈ met, ∀ m' ∈ met, m.reference = m'.reference → m.target = m'.target) :
    sources.Unmistakable start where
  home file reference meets isLocal := by
    obtain ⟨fragment, cut⟩ := isLocal
    obtain ⟨m, member, rfl, rfl, -⟩ := meets.listed closes
    rcases home m member with here | elsewhere
    · exact here
    · rw [cut] at elsewhere
      exact absurd rfl elsewhere
  same file file' reference meets meets' := by
    obtain ⟨m, member, rfl, text, means⟩ := meets.listed closes
    obtain ⟨m', member', rfl, text', means'⟩ := meets'.listed closes
    rw [means, means', same m member m' member' (text.trans text'.symm)]

theorem distinct_of_closes (closes : sources.closes start met = true)
    (distinct : ∀ m ∈ met, ∀ m' ∈ met, m.target = m'.target → m.reference = m'.reference) :
    sources.Distinct start := by
  intro file file' reference reference' t meets meets' means means'
  obtain ⟨m, member, rfl, rfl, isTarget⟩ := meets.listed closes
  obtain ⟨m', member', rfl, rfl, isTarget'⟩ := meets'.listed closes
  refine distinct m member m' member' ?_
  rw [means] at isTarget
  rw [means'] at isTarget'
  exact Option.some.inj (isTarget.symm.trans isTarget')

end Sources

/-- A document that refers to a file in a folder, which refers to a file in a folder of its
own, which refers to itself. -/
def folderDocument : Value := .object [("order", .object [("$ref", .str "types/order.json#/A")])]

def folderFiles : FileTable where
  workdir := []
  files :=
    [(["api", "types", "order.json"],
        "\x7b\"A\":\x7b\"$ref\":\"parts/item.json#/B\"\x7d\x7d".toUTF8.toList),
      (["api", "types", "parts", "item.json"],
        ("\x7b\"B\":\x7b\"$ref\":\"item.json#/C\"\x7d," ++
          "\"C\":[\x7b\"$ref\":\"item.json#/C\"\x7d]\x7d").toUTF8.toList)]
  folders := []

/-- The references that are met from the document. -/
def folderReferences : List Meeting :=
  let order : Place := ["api", "types", "order.json"]
  let item : Place := ["api", "types", "parts", "item.json"]
  [⟨none, "types/order.json#/A", ⟨some order, "/A"⟩, ["parts/item.json#/B"]⟩,
    ⟨some order, "parts/item.json#/B", ⟨some item, "/B"⟩, ["item.json#/C"]⟩,
    ⟨some item, "item.json#/C", ⟨some item, "/C"⟩, ["item.json#/C"]⟩]

theorem resolve_denotes_folders :
    (Sources.within folderFiles folderDocument).Unmistakable (.ofText "/api") ∧
    (Sources.within folderFiles folderDocument).Distinct (.ofText "/api") ∧
    ∃ w s, resolve folderFiles (.start folderDocument (some (.ofText "/api"))) = (.ok w, s) ∧
      (Sources.within folderFiles folderDocument).Denotes (.ofText "/api") False none []
        folderDocument w := by
  have closes : (Sources.within folderFiles folderDocument).closes (.ofText "/api")
      folderReferences = true := by decide +kernel
  have clear := Sources.unmistakable_of_closes closes (by decide +kernel) (by decide +kernel)
  have distinct := Sources.distinct_of_closes closes (by decide +kernel)
  have runs : (resolve folderFiles
      (.start folderDocument (some (.ofText "/api")))).1.isOk = true := by
    decide +kernel
  refine ⟨clear, distinct, ?_⟩
  cases run : resolve folderFiles (.start folderDocument (some (.ofText "/api"))) with
  | mk result s =>
      cases result with
      | error e =>
          rw [run] at runs
          cases runs
      | ok w => exact ⟨w, s, rfl, ((resolve_denotes clear w).2 distinct).mp ⟨s, run⟩⟩

/-! ## Files that refer to themselves -/

namespace Sources.Denotes

variable {sources : Sources} {start : Path} {again : Prop} {file : Option Place}
  {targets : List Target} {entries : Entries} {reference : String} {w : Value}

theorem map_inv (free : Entries.get? "$ref" entries = none)
    (denotes : sources.Denotes start again file targets (.map entries) w) :
    ∃ entries', w = .map entries' ∧
      Entries.Pointwise (sources.Denotes start again file targets) entries entries' := by
  cases denotes with
  | map _ keys each => exact ⟨_, rfl, Entries.pointwise_iff.mpr ⟨keys, each⟩⟩
  | active refers => exact absurd (free.symm.trans refers) nofun
  | alone refers => exact absurd (free.symm.trans refers) nofun
  | merged refers => exact absurd (free.symm.trans refers) nofun

/-- A reference with nothing next to it denotes what the part that it means denotes. -/
theorem reference_inv {t : Target} {raw : Value}
    (denotes : sources.Denotes start again file targets (.object [("$ref", .str reference)]) w)
    (means : sources.meaning? start file reference = some t) (fresh : t ∉ targets)
    (found : sources.partOf? t = some raw) :
    sources.Denotes start again t.file (t :: targets) (tagged reference raw) w := by
  cases denotes with
  | map free => cases free
  | active refers means' member =>
      cases refers
      obtain rfl := Option.some.inj (means.symm.trans means')
      exact absurd member fresh
  | alone refers means' _ _ found' inner =>
      cases refers
      obtain rfl := Option.some.inj (means.symm.trans means')
      obtain rfl := Option.some.inj (found.symm.trans found')
      exact inner
  | merged _ _ _ several => exact absurd rfl several

end Sources.Denotes

/-- A document whose pet is one of a file with common schemas. -/
def commonDocument : Value :=
  .object [("openapi", .str "3.0.0"), ("paths", .object []),
    ("Pet", .object [("$ref", .str "common.json#/Pet")]),
    ("Tag", .object [("type", .str "string")])]

/-- The pet of the file is a tag of the file. -/
def commonFiles : FileTable where
  workdir := []
  files := [(["common.json"],
    ("\x7b\"Pet\":\x7b\"$ref\":\"#/Tag\"\x7d," ++
      "\"Tag\":\x7b\"type\":\"integer\"\x7d\x7d").toUTF8.toList)]
  folders := []

/-- The pet denotes an integer, in the file that refers to its tag.  The resolver takes the tag
of the document instead, which is a string. -/
theorem resolve_mistakes :
    ∃ w s, resolve commonFiles (.start commonDocument none) = (.ok w, s) ∧
      Pointer.follow w ["Pet"] = some (.object [("type", .str "string")]) ∧
      ¬ (Sources.within commonFiles commonDocument).Denotes ⟨false, []⟩ True none []
        commonDocument w := by
  have pet : (Sources.within commonFiles commonDocument).partOf? ⟨some ["common.json"], "/Pet"⟩ =
      some (.object [("$ref", .str "#/Tag")]) := by decide +kernel
  have tag : (Sources.within commonFiles commonDocument).partOf? ⟨some ["common.json"], "/Tag"⟩ =
      some (.object [("type", .str "integer")]) := by decide +kernel
  have runs : (resolve commonFiles (.start commonDocument none)).1.toOption.bind
      (Pointer.follow · ["Pet"]) = some (.object [("type", .str "string")]) := by decide +kernel
  cases run : resolve commonFiles (.start commonDocument none) with
  | mk result s =>
      rw [run] at runs
      cases result with
      | error e => cases runs
      | ok w =>
          have there : Pointer.follow w ["Pet"] = some (.object [("type", .str "string")]) := runs
          refine ⟨w, s, rfl, there, fun denotes => ?_⟩
          obtain ⟨entries', rfl, each⟩ := denotes.map_inv rfl
          obtain ⟨v, found, inPet⟩ := each.get?_left (show Entries.get? "Pet" _ = some _ from rfl)
          have inFile := inPet.reference_inv (t := ⟨some ["common.json"], "/Pet"⟩)
            (by decide +kernel) nofun pet
          have inTag := inFile.reference_inv (t := ⟨some ["common.json"], "/Tag"⟩)
            (by decide +kernel) (by decide +kernel) tag
          obtain ⟨fields, rfl, isTag⟩ := inTag.map_inv rfl
          obtain ⟨type, found', isInteger⟩ :=
            isTag.get?_left (show Entries.get? "type" _ = some _ from rfl)
          cases isInteger
          rw [Pointer.follow, found] at there
          cases there
          exact absurd found' (by decide)

end ClientForge.Resolver
