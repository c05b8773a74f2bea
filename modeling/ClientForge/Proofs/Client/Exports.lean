/-
# ClientForge.Proofs.Client.Exports -- what a file exports, and when twice

The code of an operation is a row of statements that export a name each: the request function
and, for an operation with a hook, its companions -- the key function, the two types, and the
hook (`client_exports`).  The names of the companions are made of the name of the operation by
joining it once more, and a companion can be told by its name: hooks and key functions begin with
small letters, as no type does, and the types end differently (`Companion.name_inj`).

So the exports of a file are distinct exactly if its operations have distinct names that stay
distinct when they are joined, and none is called like a companion (`ExportsApart`).  For names
of ASCII only hooks and key functions are left to be compared.
-/
import ClientForge.Proofs.Client.Signatures
import ClientForge.Proofs.Client.Transport
import ClientForge.Proofs.Naming.Algebra
import Mathlib.Data.List.Perm.Basic

namespace ClientForge

set_option autoImplicit false

open Text (Begins)

/-! ## Statements -/

/-- A statement that exports a name. -/
def Exports (name statement : String) : Prop :=
  ∃ keyword ∈ ["export const ", "export type "], Begins (keyword ++ name ++ " = ") statement

/-- A row of statements on lines of their own that export these names, one each. -/
inductive ExportsInOrder : List String → String → Prop
  | nil : ExportsInOrder [] ""
  | cons {name statement gap rest : String} {names : List String} :
      Exports name statement → gap ∈ ["\n", "\n\n"] → ExportsInOrder names rest →
      ExportsInOrder (name :: names) (statement ++ gap ++ rest)

/-- More lines belong to the statement that they stand behind. -/
theorem Exports.lines {name first : String} (exports : Exports name first) (more : List String) :
    Exports name (String.intercalate "\n" (first :: more)) := by
  obtain ⟨keyword, known, begins⟩ := exports
  refine ⟨keyword, known, ?_⟩
  cases more with
  | nil => rwa [String.intercalate_singleton]
  | cons second more =>
      rw [String.intercalate_cons_cons]
      exact (begins.left _).left _

theorem RequestFunction.render_exports (f : RequestFunction) : Exports f.name f.render := by
  refine Exports.lines ⟨"export const ", by decide, ?_⟩ _
  exact (((Begins.refl _).left _).left _).left _

theorem KeyFunction.render_exports (k : KeyFunction) : Exports k.name k.render := by
  have opening : Begins " = " " = (" := by decide
  refine ⟨"export const ", by decide, ?_⟩
  exact ((((opening.right _).left _).left _).left _).left _

/-- The statement of a hook, without the types in front of it. -/
def Hook.statement (h : Hook) : String :=
  String.intercalate "\n" (("export const " ++ h.name ++ " = <TError = " ++ h.errorType ++ ">(") ::
    ((h.surface.parts ++ [h.optionsParameter]).map (fun part => "  " ++ part ++ ",") ++
      [") => \x7b"] ++ h.bodyLines ++ ["\x7d;"]))

theorem Hook.statement_exports (h : Hook) : Exports h.name h.statement := by
  have opening : Begins " = " " = <TError = " := by decide
  refine Exports.lines ⟨"export const ", by decide, ?_⟩ _
  exact ((opening.right _).left _).left _

/-- A hook exports two types, and itself. -/
theorem Hook.render_exports (h : Hook) :
    ExportsInOrder [h.resultName, h.errorName, h.name] (h.render ++ "\n") := by
  have opening : Begins " = " " = NonNullable<" := by decide
  have result : Exports h.resultName
      ("export type " ++ h.resultName ++ " = NonNullable<" ++ h.answerType ++ ">;") :=
    ⟨"export type ", by decide, ((opening.right _).left _).left _⟩
  have error : Exports h.errorName
      ("export type " ++ h.errorName ++ " = " ++ h.errorType ++ ";") :=
    ⟨"export type ", by decide, ((Begins.refl _).left _).left _⟩
  have last := ExportsInOrder.cons h.statement_exports (by decide : "\n" ∈ ["\n", "\n\n"]) .nil
  have types := ExportsInOrder.cons result (by decide : "\n" ∈ ["\n", "\n\n"])
    (.cons error (by decide : "\n\n" ∈ ["\n", "\n\n"]) last)
  have blank : "\n\n" = "\n" ++ ("" ++ "\n") := by decide
  have same : h.render =
      ("export type " ++ h.resultName ++ " = NonNullable<" ++ h.answerType ++ ">;") ++ "\n" ++
        (("export type " ++ h.errorName ++ " = " ++ h.errorType ++ ";") ++ "\n" ++
          ("" ++ "\n" ++ h.statement)) := by
    unfold render statement
    rw [typeLines_eq]
    simp only [List.cons_append, List.nil_append, List.append_assoc, String.intercalate_cons_cons]
  rw [String.append_empty, blank] at types
  rw [same]
  simpa only [String.append_assoc] using types

/-! ## Companions -/

/-- What an operation with a hook exports beside its request function. -/
inductive Companion where
  | key
  | result
  | error
  | hook
  deriving DecidableEq

namespace Companion

/-- In the order of their statements. -/
def all : List Companion := [.key, .result, .error, .hook]

/-- The name of a companion, by the name of the operation as types have it. -/
def name (stem : String) (kind : VerbKind) : Companion → String
  | .key => "get" ++ stem ++ "Key"
  | .result => stem ++ kind.typeEnding ++ "Result"
  | .error => stem ++ kind.typeEnding ++ "Error"
  | .hook => "use" ++ stem

/-- The companion is a type. -/
def isType : Companion → Bool
  | .key => false
  | .result => true
  | .error => true
  | .hook => false

/-- The name of a type, as far as it matters here: it begins with no small letter. -/
def IsStem (stem : String) : Prop := ∀ c, stem.toList.head? = some c → Naming.isSmall c = false

theorem isStem_pascal (name : String) : IsStem (Naming.pascal name) := by
  intro c first
  unfold Naming.pascal at first
  rw [String.toList_ofList] at first
  exact Naming.pascalChars_head first

/-- A companion is a type exactly if its name begins with no small letter. -/
theorem isSmall_head {stem : String} (type : IsStem stem) (kind : VerbKind)
    (companion : Companion) : ∃ c, (companion.name stem kind).toList.head? = some c ∧
      Naming.isSmall c = !companion.isType := by
  have typed : ∀ ending : String, ∃ c,
      (stem ++ kind.typeEnding ++ ending).toList.head? = some c ∧ Naming.isSmall c = false := by
    intro ending
    rw [String.append_assoc, String.toList_append]
    unfold IsStem at type
    cases chars : stem.toList with
    | nil =>
        cases kind with
        | query => exact ⟨'Q', by simp [VerbKind.typeEnding], rfl⟩
        | mutation => exact ⟨'M', by simp [VerbKind.typeEnding], rfl⟩
    | cons c rest =>
        rw [chars] at type
        exact ⟨c, rfl, type c rfl⟩
  cases companion with
  | key => exact ⟨'g', by simp [name], rfl⟩
  | result => exact typed "Result"
  | error => exact typed "Error"
  | hook => exact ⟨'u', by simp [name], rfl⟩

/-- The name of a type has letters and numbers alone, where that of its operation does. -/
theorem type_letters {stem : String} (letters : ∀ d ∈ stem.toList, Text.isAlphanumeric d = true)
    (kind : VerbKind) {companion : Companion} (type : companion.isType = true) :
    ∀ d ∈ (companion.name stem kind).toList, Text.isAlphanumeric d = true := by
  have endings : ∀ ending ∈ ["Result", "Error"],
      ∀ d ∈ kind.typeEnding.toList ++ ending.toList, Text.isAlphanumeric d = true := by
    cases kind <;> decide
  have typed : ∀ ending ∈ ["Result", "Error"],
      ∀ d ∈ (stem ++ kind.typeEnding ++ ending).toList, Text.isAlphanumeric d = true := by
    intro ending known d member
    rw [String.toList_append, String.toList_append, List.append_assoc] at member
    exact (List.mem_append.mp member).elim (letters d) (endings ending known d)
  cases companion with
  | key => cases type
  | result => exact typed "Result" (by decide)
  | error => exact typed "Error" (by decide)
  | hook => cases type

/-- Texts with different endings differ. -/
theorem ne_of_last {a b one two : String} {c d : Char} (first : one.toList.getLast? = some c)
    (second : two.toList.getLast? = some d) (other : c ≠ d) : a ++ one ≠ b ++ two := by
  intro same
  have last := congrArg (fun text => text.toList.getLast?) same
  simp only [String.toList_append, List.getLast?_append, first, second, Option.some_or,
    Option.some.injEq] at last
  exact other last

theorem type_inj {stem stem' : String} {kind kind' : VerbKind}
    (same : stem ++ kind.typeEnding = stem' ++ kind'.typeEnding) : stem = stem' := by
  have other (a b : String) : a ++ "Query" ≠ b ++ "Mutation" :=
    ne_of_last rfl rfl (by decide : 'y' ≠ 'n')
  cases kind with
  | query =>
      cases kind' with
      | query => exact (String.append_left_inj _).mp same
      | mutation => exact absurd same (other stem stem')
  | mutation =>
      cases kind' with
      | query => exact absurd same.symm (other stem' stem)
      | mutation => exact (String.append_left_inj _).mp same

/-- A companion can be told by its name, and so can the operation that it belongs to. -/
theorem name_inj {stem stem' : String} {kind kind' : VerbKind} (type : IsStem stem)
    (type' : IsStem stem') {companion companion' : Companion}
    (same : companion.name stem kind = companion'.name stem' kind') :
    stem = stem' ∧ companion = companion' := by
  have alike : companion.isType = companion'.isType := by
    obtain ⟨c, first, small⟩ := isSmall_head type kind companion
    obtain ⟨d, first', small'⟩ := isSmall_head type' kind' companion'
    rw [same, first'] at first
    obtain rfl : d = c := Option.some.inj first
    exact Bool.not_inj (small.symm.trans small')
  have functions (a b : String) : "get" ++ a ≠ "use" ++ b := by
    intro same
    have first := congrArg (fun text => text.toList.head?) same
    simp at first
  have endings (a b : String) : a ++ "Result" ≠ b ++ "Error" :=
    ne_of_last rfl rfl (by decide : 't' ≠ 'r')
  cases companion <;> cases companion' <;> try exact absurd alike (by decide)
  case key.key => exact ⟨(String.append_right_inj _).mp ((String.append_left_inj _).mp same), rfl⟩
  case key.hook => exact absurd (String.append_assoc.symm.trans same) (functions _ _)
  case hook.key => exact absurd (String.append_assoc.symm.trans same.symm) (functions _ _)
  case hook.hook => exact ⟨(String.append_right_inj _).mp same, rfl⟩
  case result.result => exact ⟨type_inj ((String.append_left_inj _).mp same), rfl⟩
  case result.error => exact absurd same (endings _ _)
  case error.result => exact absurd same.symm (endings _ _)
  case error.error => exact ⟨type_inj ((String.append_left_inj _).mp same), rfl⟩

end Companion

/-! ## Operations -/

namespace Contract

/-- What the code of an operation exports beside its request function, if it has a hook. -/
def companions (c : Contract) : Option VerbKind → List String
  | none => []
  | some kind =>
    [c.keyFunctionName, (c.hook kind).resultName, (c.hook kind).errorName, c.hookName]

/-- The names that the code of an operation exports, in the order of its statements. -/
def exportedNames (c : Contract) (hook : Option VerbKind) : List String :=
  c.name :: c.companions hook

theorem companions_some (c : Contract) (kind : VerbKind) :
    c.companions (some kind) = Companion.all.map (Companion.name (Naming.pascal c.name) kind) := by
  have key : c.keyFunctionName = "get" ++ Naming.pascal c.name ++ "Key" :=
    Naming.camel_get_key c.name
  have hook : c.hookName = "use" ++ Naming.pascal c.name := Naming.camel_use c.name
  unfold companions
  rw [key, hook]
  rfl

/-- The code of an operation is a row of statements that export these names. -/
theorem client_exports {f : Flavor} {profile : Profile} {c : Contract} {hook : Option VerbKind}
    (writes : f.Writes profile c hook) {code : ClientCode}
    (run : (f.client c).result = .ok code) :
    ExportsInOrder (c.exportedNames hook) code.implementation := by
  have requested {r : RequestFunction} (request : c.request profile = .ok r) :
      Exports c.name r.render := by
    rw [← (request_eq_ok request).1]
    exact r.render_exports
  have alone {r : RequestFunction} (request : c.request profile = .ok r) :
      ExportsInOrder (c.exportedNames none) (r.render ++ "\n") := by
    have row := ExportsInOrder.cons (requested request) (by decide : "\n" ∈ ["\n", "\n\n"]) .nil
    rwa [String.append_empty] at row
  cases writes with
  | axios =>
      have run : Flavor.Axios.client profile c = .ok code := run
      obtain ⟨r, request, run⟩ := Attempt.bind_eq_ok run
      cases run
      exact alone request
  | swr =>
      have run : (Flavor.Swr.client profile c).result = .ok code := run
      obtain ⟨r, request, run⟩ := Traced.bind_eq_ok run
      have request : c.request profile = .ok r := request
      cases hooked : VerbKind.ofVerb? c.verb with
      | none =>
          rw [hooked] at run
          cases run
          exact alone request
      | some kind =>
          rw [hooked] at run
          cases run
          have gap : "\n\n" ∈ ["\n", "\n\n"] := by decide
          have row : ExportsInOrder (c.exportedNames (some kind)) _ :=
            .cons (requested request) gap
              (.cons c.keyFunction.render_exports gap (c.hook kind).render_exports)
          simpa only [Flavor.Swr.hookText, String.append_assoc] using row

/-! ## Where the names come from -/

/-- The name of an operation is made of a text of ASCII. -/
def HasAsciiName (c : Contract) : Prop :=
  ∃ source : String, Naming.IsAscii source.toList ∧ c.name = Naming.camel source

end Contract

namespace Operation

/-- What the name of an operation is made of: its own or, where it has none, verb and path. -/
def source (op : Operation) (path : String) : String :=
  match op.id with
  | some (.str id) => if id = "" then op.verb.name ++ " " ++ path else id
  | _ => op.verb.name ++ " " ++ path

/-- The operation is called by ASCII. -/
def IsAscii (op : Operation) : Prop :=
  (∀ id, op.id = some (.str id) → Naming.IsAscii id.toList) ∧
    ∀ path, op.path = .str path → Naming.IsAscii path.toList

theorem contract_name {op : Operation} {o : Override} {c : Contract}
    (run : (op.contract o).result = .ok c) :
    ∃ path, op.path = .str path ∧ c.name = Naming.camel (op.source path) := by
  unfold contract at run
  obtain ⟨name, named, run⟩ := Traced.bind_eq_ok run
  obtain ⟨result, built, run⟩ := Traced.bind_eq_ok run
  have named : op.functionName = .ok name := named
  cases result with
  | error failure => cases run
  | ok contract =>
      cases run
      obtain ⟨same, isPath, -⟩ := Contract.build_keeps (Except.ok.inj built)
      refine ⟨c.path, isPath, ?_⟩
      have shown : op.path.shown = c.path := by
        rw [isPath]
        rfl
      rw [same]
      generalize c.path = path at shown
      unfold functionName at named
      unfold source
      rw [shown] at named
      split at named
      · rename_i none
        rw [none]
        exact (Except.ok.inj named).symm
      · rename_i id given
        rw [given]
        split at named
        · rename_i empty
          rw [← Except.ok.inj named]
          split
          · rename_i text is
            cases is
            have blank : text = "" := by simpa [Value.truthy, Scalar.truthy] using empty
            rw [if_pos blank]
            rfl
          · rfl
        · obtain ⟨text, read, named⟩ := Attempt.bind_eq_ok named
          obtain rfl := Contract.textOf_eq_ok read
          rw [← Except.ok.inj named]
          dsimp only [Naming.operationName]
          split <;> rfl

end Operation

/-! ## Files -/

section Files

variable {hooks : Contract → Option VerbKind} {contracts : List Contract}

/-- The names that a file with these operations exports, where they have these hooks. -/
def exportsOf (hooks : Contract → Option VerbKind) (contracts : List Contract) : List String :=
  contracts.flatMap fun c => c.exportedNames (hooks c)

/-- The exports of these operations do not meet. -/
structure ExportsApart (hooks : Contract → Option VerbKind) (contracts : List Contract) :
    Prop where
  /-- Two operations have two names, -/
  requests : (contracts.map Contract.name).Nodup
  /-- and with hooks these make two names of types. -/
  stems : (contracts.filterMap fun c => (hooks c).map fun _ => Naming.pascal c.name).Nodup
  /-- No operation is called like a companion of any. -/
  companions : ∀ c ∈ contracts, ∀ h ∈ contracts, c.name ∉ h.companions (hooks h)

/-- The companions of an operation are distinct, and those of two are where their stems are. -/
theorem companions_nodup (c : Contract) (hook : Option VerbKind) : (c.companions hook).Nodup := by
  cases hook with
  | none => exact .nil
  | some kind =>
      have stem := Companion.isStem_pascal c.name
      rw [c.companions_some]
      refine List.Nodup.map_on ?_ (by decide)
      exact fun a _ b _ same => (Companion.name_inj stem stem same).2

theorem companions_disjoint_iff (c d : Contract) (hook hook' : Option VerbKind) :
    List.Disjoint (c.companions hook) (d.companions hook') ↔
      ∀ a, hook.map (fun _ => Naming.pascal c.name) = some a →
        ∀ b, hook'.map (fun _ => Naming.pascal d.name) = some b → a ≠ b := by
  cases hook with
  | none => simp [Contract.companions]
  | some kind =>
      cases hook' with
      | none => simp [Contract.companions]
      | some kind' =>
          rw [c.companions_some, d.companions_some]
          constructor
          · intro disjoint a one b two same
            obtain rfl : Naming.pascal c.name = a := Option.some.inj one
            obtain rfl : Naming.pascal d.name = b := Option.some.inj two
            have here : "use" ++ Naming.pascal c.name ∈
                Companion.all.map (Companion.name (Naming.pascal c.name) kind) :=
              List.mem_map_of_mem (a := Companion.hook) (by decide)
            refine disjoint here ?_
            rw [same]
            exact List.mem_map_of_mem (a := Companion.hook) (by decide)
          · rintro other name inOne inTwo
            obtain ⟨one, -, rfl⟩ := List.mem_map.mp inOne
            obtain ⟨two, -, same⟩ := List.mem_map.mp inTwo
            refine other _ rfl _ rfl ?_
            exact ((Companion.name_inj (Companion.isStem_pascal _) (Companion.isStem_pascal _)
              same).1).symm

theorem exportsOf_nodup_iff : (exportsOf hooks contracts).Nodup ↔ ExportsApart hooks contracts := by
  have split : (exportsOf hooks contracts).Perm
      (contracts.map Contract.name ++ contracts.flatMap fun c => c.companions (hooks c)) :=
    (List.map_append_flatMap_perm contracts Contract.name _).symm
  have apart : (contracts.flatMap fun c => c.companions (hooks c)).Nodup ↔
      (contracts.filterMap fun c => (hooks c).map fun _ => Naming.pascal c.name).Nodup := by
    rw [List.nodup_flatMap, List.Nodup, List.pairwise_filterMap]
    constructor
    · rintro ⟨-, disjoint⟩
      exact disjoint.imp fun two => (companions_disjoint_iff _ _ _ _).mp two
    · intro stems
      refine ⟨fun c _ => companions_nodup c _, stems.imp fun two => ?_⟩
      exact (companions_disjoint_iff _ _ _ _).mpr two
  rw [split.nodup_iff, List.nodup_append, apart]
  constructor
  · rintro ⟨requests, stems, companions⟩
    refine ⟨requests, stems, fun c member h there same => ?_⟩
    exact companions _ (List.mem_map_of_mem member) _ (List.mem_flatMap.mpr ⟨h, there, same⟩) rfl
  · rintro ⟨requests, stems, companions⟩
    refine ⟨requests, stems, ?_⟩
    rintro name member other there rfl
    obtain ⟨c, among, rfl⟩ := List.mem_map.mp member
    obtain ⟨h, inside, same⟩ := List.mem_flatMap.mp there
    exact companions c among h inside same

/-! ## Names of ASCII -/

/-- Names of ASCII stay distinct when they are joined. -/
theorem name_of_pascal {c d : Contract} (ascii : c.HasAsciiName) (ascii' : d.HasAsciiName)
    (same : Naming.pascal c.name = Naming.pascal d.name) : c.name = d.name := by
  obtain ⟨source, chars, name⟩ := ascii
  obtain ⟨source', chars', name'⟩ := ascii'
  rw [name, name', Naming.pascal_camel chars, Naming.pascal_camel chars'] at same
  have joined : Naming.pascalChars source.toList = Naming.pascalChars source'.toList :=
    String.ofList_injective same
  rw [name, name']
  unfold Naming.camel Naming.camelChars
  rw [joined]

/-- No operation with a name of ASCII is called like a type. -/
theorem name_ne_type {c h : Contract} (ascii : c.HasAsciiName) (ascii' : h.HasAsciiName)
    (kind : VerbKind) {companion : Companion} (type : companion.isType = true) :
    c.name ≠ companion.name (Naming.pascal h.name) kind := by
  intro same
  obtain ⟨first, begins, notSmall⟩ :=
    Companion.isSmall_head (Companion.isStem_pascal h.name) kind companion
  rw [type, Bool.not_true] at notSmall
  have lowLine : first = '_' := by
    obtain ⟨source, chars, name⟩ := ascii
    rw [← same, name, Naming.camel, String.toList_ofList] at begins
    refine (Naming.camelChars_head chars begins).resolve_left fun small => ?_
    rw [notSmall] at small
    cases small
  obtain ⟨source, chars, name⟩ := ascii'
  have stem : ∀ d ∈ (Naming.pascal h.name).toList, Text.isAlphanumeric d = true := by
    rw [name, Naming.pascal_camel chars, Naming.pascal, String.toList_ofList]
    exact fun d member => ((Naming.pascalChars_ascii chars).1 d member).2
  have letter := Companion.type_letters stem kind type first (List.mem_of_head? begins)
  rw [lowLine] at letter
  exact absurd letter (by decide)

/-- For names of ASCII it is enough that none is that of a hook or a key function. -/
theorem exportsOf_nodup_ascii (ascii : ∀ c ∈ contracts, c.HasAsciiName) :
    (exportsOf hooks contracts).Nodup ↔ (contracts.map Contract.name).Nodup ∧
      ∀ c ∈ contracts, ∀ h ∈ contracts, (hooks h).isSome = true →
        c.name ≠ h.hookName ∧ c.name ≠ h.keyFunctionName := by
  rw [exportsOf_nodup_iff]
  constructor
  · rintro ⟨requests, -, companions⟩
    refine ⟨requests, fun c member h there hooked => ?_⟩
    obtain ⟨kind, some⟩ := Option.isSome_iff_exists.mp hooked
    have other := companions c member h there
    rw [some] at other
    simp only [Contract.companions, List.mem_cons, List.not_mem_nil, or_false, not_or] at other
    exact ⟨other.2.2.2, other.1⟩
  · rintro ⟨requests, companions⟩
    refine ⟨requests, ?_, fun c member h there named => ?_⟩
    · refine List.pairwise_filterMap.mpr ((List.pairwise_map.mp requests).imp_of_mem ?_)
      intro c d member there other a one b two same
      obtain ⟨_, -, rfl⟩ := Option.map_eq_some_iff.mp one
      obtain ⟨_, -, rfl⟩ := Option.map_eq_some_iff.mp two
      exact other (name_of_pascal (ascii c member) (ascii d there) same)
    · cases hooked : hooks h with
      | none =>
          rw [hooked] at named
          cases named
      | some kind =>
          obtain ⟨notHook, notKey⟩ := companions c member h there (by rw [hooked]; rfl)
          rw [hooked, h.companions_some] at named
          obtain ⟨companion, -, same⟩ := List.mem_map.mp named
          have notType (type : companion.isType = true) : False :=
            name_ne_type (ascii c member) (ascii h there) kind type same.symm
          cases companion with
          | key => exact notKey (same.symm.trans (Naming.camel_get_key h.name).symm)
          | result => exact notType rfl
          | error => exact notType rfl
          | hook => exact notHook (same.symm.trans (Naming.camel_use h.name).symm)

theorem Operation.IsAscii.contract {op : Operation} (ascii : op.IsAscii) {o : Override}
    {c : Contract} (run : (op.contract o).result = .ok c) : c.HasAsciiName := by
  obtain ⟨path, isPath, name⟩ := Operation.contract_name run
  refine ⟨op.source path, ?_, name⟩
  have fallback : Naming.IsAscii (op.verb.name ++ " " ++ path).toList := by
    have verbs : ∀ verb ∈ Verb.all, Naming.IsAscii (verb.name ++ " ").toList := by decide
    rw [String.toList_append]
    intro d member
    exact (List.mem_append.mp member).elim (verbs op.verb op.verb.mem_all d) (ascii.2 path isPath d)
  unfold Operation.source
  split
  · rename_i id own
    split
    · exact fallback
    · exact ascii.1 id own
  · exact fallback

end Files

namespace Flavor

variable {f : Flavor} {profile : Profile} {hooks : Contract → Option VerbKind}
  {contracts : List Contract} {allMutated : Bool} {file : ClientFile}

/-- The code of every operation in a file is a row of its exports. -/
theorem fileOf_exports (builtIn : f = .axios profile ∨ f = .swr profile)
    (writes : ∀ c ∈ contracts, f.Writes profile c (hooks c))
    (run : (f.fileOf allMutated contracts).result = .ok file) :
    List.Forall₂ (fun c text => ExportsInOrder (c.exportedNames (hooks c)) text) contracts
      file.implementations := by
  obtain ⟨-, each⟩ := fileOf_eq_ok (builtIn_reportsNothing builtIn) run
  refine ((List.forall₂_and_left _ _).mpr ⟨writes, each⟩).imp ?_
  rintro c text ⟨writes, code, run, rfl⟩
  exact Contract.client_exports writes run

/-- **The exports of a file are distinct exactly if the names of its operations keep them apart.**
These names are made of the operations' own or, where there is none, of verb and path; if they
are ASCII, they have to be distinct, and none may be that of a hook or of a key function. -/
theorem exports_distinct_iff (builtIn : f = .axios profile ∨ f = .swr profile)
    (writes : ∀ c ∈ contracts, f.Writes profile c (hooks c))
    (run : (f.fileOf allMutated contracts).result = .ok file) :
    List.Forall₂ (fun c text => ExportsInOrder (c.exportedNames (hooks c)) text) contracts
        file.implementations ∧
      ((exportsOf hooks contracts).Nodup ↔ ExportsApart hooks contracts) ∧
      (∀ (op : Operation) o c, (op.contract o).result = .ok c →
        ∃ path, op.path = .str path ∧ c.name = Naming.camel (op.source path)) ∧
      ((∀ c ∈ contracts, ∃ op : Operation, op.IsAscii ∧ ∃ o, (op.contract o).result = .ok c) →
        ((exportsOf hooks contracts).Nodup ↔ (contracts.map Contract.name).Nodup ∧
          ∀ c ∈ contracts, ∀ h ∈ contracts, (hooks h).isSome = true →
            c.name ≠ h.hookName ∧ c.name ≠ h.keyFunctionName)) := by
  refine ⟨fileOf_exports builtIn writes run, exportsOf_nodup_iff,
    fun op o c built => Operation.contract_name built, fun called => ?_⟩
  refine exportsOf_nodup_ascii fun c member => ?_
  obtain ⟨op, ascii, o, built⟩ := called c member
  exact ascii.contract built

/-- An operation with a name, and one that is called by its verb and path. -/
def petOperations : Value :=
  Contract.documentOf [
    ("/pets", "get", [("operationId", .str "list-pets"), ("responses", .object [])]),
    ("/pets/all", "delete", [("responses", .object [])])]

theorem exports_distinct_pets :
    ∃ api one two c d file, Api.ofDocument petOperations = .ok api ∧ api.operations = [one, two] ∧
      (one.contract {}).result = .ok c ∧ (two.contract {}).result = .ok d ∧
      ((Flavor.swr ⟨true, true⟩).fileOf false [c, d]).result = .ok file ∧
      exportsOf (fun c => VerbKind.ofVerb? c.verb) [c, d] =
        ["listPets", "getListPetsKey", "ListPetsQueryResult", "ListPetsQueryError", "useListPets",
          "deletePetsAll", "getDeletePetsAllKey", "DeletePetsAllMutationResult",
          "DeletePetsAllMutationError", "useDeletePetsAll"] ∧
      ExportsApart (fun c => VerbKind.ofVerb? c.verb) [c, d] ∧
      c.name ≠ d.hookName ∧ d.name ≠ c.keyFunctionName := by
  have runs : ∃ api one two c d file, Api.ofDocument petOperations = .ok api ∧
      api.operations = [one, two] ∧ one.id = some (.str "list-pets") ∧ one.path = .str "/pets" ∧
      two.id = none ∧ two.path = .str "/pets/all" ∧
      (one.contract {}).result = .ok c ∧ (two.contract {}).result = .ok d ∧
      ((Flavor.swr ⟨true, true⟩).fileOf false [c, d]).result = .ok file ∧
      VerbKind.ofVerb? c.verb = some .query ∧ VerbKind.ofVerb? d.verb = some .mutation ∧
      exportsOf (fun c => VerbKind.ofVerb? c.verb) [c, d] =
        ["listPets", "getListPetsKey", "ListPetsQueryResult", "ListPetsQueryError", "useListPets",
          "deletePetsAll", "getDeletePetsAllKey", "DeletePetsAllMutationResult",
          "DeletePetsAllMutationError", "useDeletePetsAll"] :=
    ⟨_, _, _, _, _, _, rfl, rfl, rfl, rfl, rfl, rfl, rfl, rfl, rfl, rfl, rfl, rfl⟩
  obtain ⟨api, one, two, c, d, file, read, both, id, path, none, path', built, built', run, query,
    mutation, names⟩ := runs
  obtain ⟨-, apart, -, called⟩ := exports_distinct_iff (Or.inr rfl) (fun c _ => .swr) run
  have distinct : (exportsOf (fun c => VerbKind.ofVerb? c.verb) [c, d]).Nodup := by
    rw [names]
    decide
  have ascii : one.IsAscii ∧ two.IsAscii := by
    constructor
    · constructor
      · rw [id]
        rintro text ⟨⟩
        decide
      · rw [path]
        rintro text ⟨⟩
        decide
    · constructor
      · rw [none]
        rintro text ⟨⟩
      · rw [path']
        rintro text ⟨⟩
        decide
  have others := ((called (List.forall_mem_cons.mpr ⟨⟨one, ascii.1, {}, built⟩,
    List.forall_mem_singleton.mpr ⟨two, ascii.2, {}, built'⟩⟩)).mp distinct).2
  refine ⟨api, one, two, c, d, file, read, both, built, built', run, names, apart.mp distinct,
    (others c (by simp) d (by simp) ?_).1, (others d (by simp) c (by simp) ?_).2⟩
  · rw [mutation]
    rfl
  · rw [query]
    rfl

/-- Two spellings of one name, and the name of a hook. -/
def respelledOperations : Value :=
  Contract.documentOf [
    ("/pets", "get", [("operationId", .str "list-pets"), ("responses", .object [])]),
    ("/animals", "get", [("operationId", .str "listPets"), ("responses", .object [])]),
    ("/uses", "get", [("operationId", .str "use-list-pets"), ("responses", .object [])])]

/-- Distinct names of operations may make one name of a function, and one name may be that of a
function and of the hook of another. -/
theorem exports_repeat :
    ∃ api one two three c d e plain hooked, Api.ofDocument respelledOperations = .ok api ∧
      api.operations = [one, two, three] ∧
      [one.id, two.id, three.id] =
        [some (.str "list-pets"), some (.str "listPets"), some (.str "use-list-pets")] ∧
      (one.contract {}).result = .ok c ∧ (two.contract {}).result = .ok d ∧
      (three.contract {}).result = .ok e ∧
      ((Flavor.axios ⟨true, true⟩).fileOf false [c, d, e]).result = .ok plain ∧
      ((Flavor.swr ⟨true, true⟩).fileOf false [c, d, e]).result = .ok hooked ∧
      List.Forall₂ (fun c text => ExportsInOrder (c.exportedNames none) text) [c, d, e]
        plain.implementations ∧
      ¬ (exportsOf (fun _ => none) [c, d, e]).Nodup ∧
      c.name = "listPets" ∧ d.name = "listPets" ∧ e.name = "useListPets" ∧
      c.hookName = "useListPets" ∧
      ¬ (exportsOf (fun c => VerbKind.ofVerb? c.verb) [c, e]).Nodup := by
  have runs : ∃ api one two three c d e plain hooked,
      Api.ofDocument respelledOperations = .ok api ∧ api.operations = [one, two, three] ∧
      [one.id, two.id, three.id] =
        [some (.str "list-pets"), some (.str "listPets"), some (.str "use-list-pets")] ∧
      (one.contract {}).result = .ok c ∧ (two.contract {}).result = .ok d ∧
      (three.contract {}).result = .ok e ∧
      ((Flavor.axios ⟨true, true⟩).fileOf false [c, d, e]).result = .ok plain ∧
      ((Flavor.swr ⟨true, true⟩).fileOf false [c, d, e]).result = .ok hooked ∧
      c.name = "listPets" ∧ d.name = "listPets" ∧ e.name = "useListPets" ∧
      c.hookName = "useListPets" ∧ VerbKind.ofVerb? c.verb = some .query :=
    ⟨_, _, _, _, _, _, _, _, _, rfl, rfl, rfl, rfl, rfl, rfl, rfl, rfl, rfl, rfl, rfl, rfl, rfl⟩
  obtain ⟨api, one, two, three, c, d, e, plain, hooked, read, all, ids, built, built', built'',
    run, run', name, name', name'', hook, query⟩ := runs
  have exports := fileOf_exports (Or.inl rfl) (fun c _ => .axios) run
  refine ⟨api, one, two, three, c, d, e, plain, hooked, read, all, ids, built, built', built'',
    run, run', exports, ?_, name, name', name'', hook, ?_⟩
  · rw [exportsOf_nodup_iff]
    rintro ⟨requests, -, -⟩
    simp [name, name'] at requests
  · rw [exportsOf_nodup_iff]
    rintro ⟨-, -, companions⟩
    refine companions e (by simp) c (by simp) ?_
    rw [query, name'', ← hook]
    simp [Contract.companions]

end Flavor

end ClientForge
