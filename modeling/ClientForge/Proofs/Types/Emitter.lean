/-
# ClientForge.Proofs.Types.Emitter -- one emitter for many schemas

The type of a schema can be written in one pass: an emitter (`Emitter`) writes the text from the
schema as it goes through it, and records every model where it writes its name.  What it has
recorded stays when it fails, be it in the middle of a schema, and the same emitter is asked for
one schema after another.  So a call may start with whatever earlier calls have left behind.

Nothing of that can be seen.  One pass does what reading a schema and rendering its type do
(`Follows`): it fails where reading fails, and it records the names of the type, in their order,
behind what was recorded before (`emit_follows`).  A call forgets that first, so it has the result
of a new emitter and of `Schema.resolve`, and its imports are the models of the nodes that this
schema is written with by name (`Emitter.resolveAll_fresh`).
-/
import ClientForge.Proofs.Imports.Order
import ClientForge.Proofs.Types.Traversal

namespace ClientForge

set_option autoImplicit false

/-! ## Writing a type in one pass -/

/-- A step of an emitter; what it has recorded is kept when it fails. -/
abbrev Emitting := ExceptT Failure (StateM ImportSet)

namespace Schema

open TypeExpr (joinDistinct parenthesized arrayText objectText nullableText)

/-- Write a type by its name, and record the model. -/
def emitNamed (name : String) : Emitting String := do
  modify fun imports => imports.insert (.model (Naming.pascal name))
  return Naming.pascal name

def emitReference : Value → Emitting String
  | .atom (.str reference) =>
    if isSchemaReference reference then
      emitNamed (String.ofList (reference.toList.drop schemaReferenceStart.length))
    else liftM (reject (.foreignReference reference) : Attempt String)
  | _ => liftM (illShaped : Attempt String)

/-- Write a type that has no names in it. -/
def emitPlain (type : Attempt TypeExpr) : Emitting String := TypeExpr.render <$> liftM type

def emitTypeNamed (useDates : Bool) (entries : Entries) (array object : Emitting String)
    (name : Value) : Emitting String :=
  let other := if Entries.has "properties" entries then object else emitPlain (.ok .unknown)
  match name with
  | .atom (.str name) =>
    if name = "string" then emitPlain (stringType useDates (Entries.get? "format" entries))
    else if name = "integer" ∨ name = "number" then emitPlain (.ok (.primitive .number))
    else if name = "boolean" then emitPlain (.ok (.primitive .boolean))
    else if name = "null" then emitPlain (.ok (.primitive .null))
    else if name = "array" then array
    else if name = "object" then object
    else other
  | .atom _ => other
  | _ => liftM (illShaped : Attempt String)

/-- A member of an object type. -/
def memberText (key : MemberKey) (type : String) : String := key.text ++ ": " ++ type

def emitDeclared (entries : Entries) (properties : List String → Emitting (List String)) :
    Emitting (List String) :=
  if Entries.given "properties" entries then do
    let required ← liftM (requiredNames (Entries.get? "required" entries))
    properties required
  else return []

def emitOthers (entries : Entries) (additional : Emitting String) : Emitting (List String) :=
  match Entries.get? "additionalProperties" entries with
  | some (.map (_ :: _)) => (fun text => [memberText .index text]) <$> additional
  | some (.atom (.bool false)) => pure []
  | _ => pure (if Entries.given "properties" entries then [] else [memberText .index unknownText])

def emitObject (entries : Entries) (properties : List String → Emitting (List String))
    (additional : Emitting String) : Emitting String := do
  let declared ← emitDeclared entries properties
  let others ← emitOthers entries additional
  return objectText (declared ++ others)

/-- Add null to a text whose schema says so. -/
def nullText (entries : Entries) (text : String) : String :=
  if Entries.given "nullable" entries then nullableText text else text

def unionText (texts : List String) : String :=
  joinDistinct " | " (texts.map (parenthesized '&'))

def intersectionText (texts : List String) : String :=
  joinDistinct " & " (texts.map (parenthesized '|'))

def choiceText (texts : List String) : String := joinDistinct " | " texts

section Emitting

variable (useDates : Bool)

mutual

/-- Write the type of a schema. -/
def emit (inlineNamed : Bool) : Value → Emitting String
  | .atom _ => emitPlain (.ok .unknown)
  | .list _ => emitPlain (.ok .unknown)
  | .map entries =>
    if entries.isEmpty then emitPlain (.ok .unknown)
    else nullText entries <$>
      match ruleFor inlineNamed entries with
      | .reference => emitReference ((Entries.get? "$ref" entries).getD .null)
      | .name => emitNamed ((nameOf? entries).getD "")
      | .oneOf => unionText <$> emitMembersAt "oneOf" entries
      | .anyOf => unionText <$> emitMembersAt "anyOf" entries
      | .allOf => intersectionText <$> emitMembersAt "allOf" entries
      | .enum => emitPlain ((literals ((Entries.get? "enum" entries).getD .null)).map .choice)
      | .const => emitPlain (literals.literal ((Entries.get? "const" entries).getD .null))
      | .type =>
        let array := arrayText <$> emitAt "items" entries
        let object := emitObject entries (fun required => emitPropertiesAt required entries)
          (emitAt "additionalProperties" entries)
        match Entries.get? "type" entries with
        | some (.list types) =>
          choiceText <$> types.mapM (emitTypeNamed useDates entries array object)
        | type => emitTypeNamed useDates entries array object (type.getD .null)

/-- Write the type of the value under a key. -/
def emitAt (key : String) : List (Scalar × Value) → Emitting String
  | [] => emitPlain (.ok .unknown)
  | (k, v) :: rest => if k = .str key then emit false v else emitAt key rest

/-- Write the types of the items under a key. -/
def emitMembersAt (key : String) : List (Scalar × Value) → Emitting (List String)
  | [] => return []
  | (k, v) :: rest =>
    if k = .str key then
      match v with
      | .list items => emitItems items
      | v =>
        match v.elements? with
        | some parts => return parts.map fun _ => unknownText
        | none => liftM (illShaped : Attempt (List String))
    else emitMembersAt key rest

def emitItems : List Value → Emitting (List String)
  | [] => return []
  | v :: rest => do
    let text ← emit false v
    let texts ← emitItems rest
    return text :: texts

/-- Write the properties under `properties`. -/
def emitPropertiesAt (required : List String) : List (Scalar × Value) → Emitting (List String)
  | [] => return []
  | (k, v) :: rest =>
    if k = .str "properties" then
      match v with
      | .map properties => emitProperties required properties
      | _ => liftM (illShaped : Attempt (List String))
    else emitPropertiesAt required rest

def emitProperties (required : List String) : List (Scalar × Value) → Emitting (List String)
  | [] => return []
  | (k, v) :: rest =>
    match k with
    | .str name => do
      let text ← emit false v
      let texts ← emitProperties required rest
      return memberText (.property name (!required.contains name)) text :: texts
    | _ => liftM (illShaped : Attempt (List String))

end

end Emitting

/-! ## One pass does what reading and rendering do -/

/-- What has been recorded once these names are written as well. -/
def recorded (imports : ImportSet) (names : List String) : ImportSet :=
  imports.insertAll (names.map fun name => .model (Naming.pascal name))

theorem recorded_append (imports : ImportSet) (first second : List String) :
    recorded imports (first ++ second) = recorded (recorded imports first) second := by
  unfold recorded ImportSet.insertAll
  rw [List.map_append, List.foldl_append]

/-- A step fails where reading fails.  Otherwise it writes the text of what is read, and records
the names of it behind what was recorded before. -/
def Follows {α β : Type} (text : α → β) (names : α → List String) (x : Attempt α)
    (y : Emitting β) : Prop :=
  ∀ imports,
    match x with
    | .ok a => y imports = (.ok (text a), recorded imports (names a))
    | .error failure => (y imports).1 = .error failure

/-- Writing a type follows reading it. -/
abbrev Writes : Attempt TypeExpr → Emitting String → Prop :=
  Follows TypeExpr.render TypeExpr.names

/-- Writing a list of types follows reading them. -/
abbrev WritesAll : Attempt (List TypeExpr) → Emitting (List String) → Prop :=
  Follows (List.map TypeExpr.render) (List.flatMap TypeExpr.names)

/-- The text of a member of an object type. -/
def memberLine (member : MemberKey × TypeExpr) : String := memberText member.1 member.2.render

/-- Writing the members of an object type follows reading them. -/
abbrev WritesMembers : Attempt (List (MemberKey × TypeExpr)) → Emitting (List String) → Prop :=
  Follows (List.map memberLine) (List.flatMap memberNames)

namespace Follows

section Steps

variable {α β γ δ : Type} {text : α → β} {names : α → List String} {text' : γ → δ}
  {names' : γ → List String} {x : Attempt α} {y : Emitting β}

theorem ok {a : α} {b : β} (same : text a = b) (none : names a = []) :
    Follows text names (.ok a) (pure b) := by
  intro imports
  show _ = _
  rw [same, none]
  rfl

theorem error (failure : Failure) :
    Follows text names (.error failure) (liftM (.error failure : Attempt β)) := by
  intro imports
  rfl

/-- A step that is not to do with names goes first. -/
theorem after {ε : Type} {z : Attempt ε} {f : ε → Attempt α} {g : ε → Emitting β}
    (later : ∀ c, Follows text names (f c) (g c)) :
    Follows text names (z >>= f) (liftM z >>= g) := by
  intro imports
  cases z with
  | error failure => rfl
  | ok c => exact later c imports

theorem map {f : α → γ} {g : β → δ} (first : Follows text names x y)
    (texts : ∀ a, text' (f a) = g (text a)) (keeps : ∀ a, names' (f a) = names a) :
    Follows text' names' (x.map f) (g <$> y) := by
  intro imports
  have first := first imports
  rw [← bind_pure_comp]
  cases x with
  | error failure => exact Attempt.bind_apply_of_error first
  | ok a =>
      show _ = _
      rw [Attempt.bind_apply_of_ok first, texts, keeps]
      rfl

/-- Two steps are done one after the other; the names of the second are recorded behind those of
the first. -/
theorem both {ε ζ : Type} {text'' : ε → ζ} {names'' : ε → List String} {x' : Attempt γ}
    {y' : Emitting δ} {f : α → γ → ε} {g : β → δ → ζ} (first : Follows text names x y)
    (second : Follows text' names' x' y') (texts : ∀ a c, text'' (f a c) = g (text a) (text' c))
    (keeps : ∀ a c, names'' (f a c) = names a ++ names' c) :
    Follows text'' names'' (x >>= fun a => x' >>= fun c => .ok (f a c))
      (y >>= fun b => y' >>= fun d => pure (g b d)) := by
  intro imports
  have first := first imports
  cases x with
  | error failure => exact Attempt.bind_apply_of_error first
  | ok a =>
      have second := second (recorded imports (names a))
      cases x' with
      | error failure =>
          show (Prod.fst _) = _
          rw [Attempt.bind_apply_of_ok first]
          exact Attempt.bind_apply_of_error second
      | ok c =>
          show _ = _
          rw [Attempt.bind_apply_of_ok first, Attempt.bind_apply_of_ok second, texts, keeps,
            recorded_append]
          rfl

theorem mapM {f : γ → Attempt α} {g : γ → Emitting β} {xs : List γ}
    (each : ∀ c ∈ xs, Follows text names (f c) (g c)) :
    Follows (List.map text) (List.flatMap names) (xs.mapM f) (xs.mapM g) := by
  induction xs with
  | nil => exact .ok rfl rfl
  | cons c rest ih =>
      obtain ⟨here, later⟩ := List.forall_mem_cons.mp each
      rw [List.mapM_cons, List.mapM_cons]
      exact here.both (ih later) (fun _ _ => rfl) fun _ _ => List.flatMap_cons

/-- A type without names is written without anything to record. -/
theorem plain {x : Attempt TypeExpr} (none : Yields TypeExpr.names (fun _ => False) x) :
    Writes x (emitPlain x) := by
  intro imports
  cases x with
  | error failure => rfl
  | ok e =>
      have empty : e.names = [] := List.eq_nil_iff_forall_not_mem.mpr fun name member =>
        (none e rfl name).mp member
      show _ = (_, recorded imports e.names)
      rw [empty]
      rfl

theorem unknown : Writes (.ok .unknown) (emitPlain (.ok .unknown)) :=
  plain (.ok (by simp [TypeExpr.names]))

theorem primitive (p : Primitive) :
    Writes (.ok (.primitive p)) (emitPlain (.ok (.primitive p))) :=
  plain (.ok (by simp [TypeExpr.names]))

/-- Nothing is known about the parts of a value that lists no schemas. -/
theorem unlisted (parts? : Option (List Value)) :
    WritesAll
      (match parts? with
        | some parts => .ok (parts.map fun _ => .unknown)
        | none => illShaped)
      (match parts? with
        | some parts => pure (parts.map fun _ => unknownText)
        | none => liftM (illShaped : Attempt (List String))) := by
  cases parts? with
  | none => exact .error _
  | some parts => exact .ok (List.map_map ..) (by simp [TypeExpr.names])

end Steps

end Follows

section Parts

variable {properties : List String → Attempt (List (MemberKey × TypeExpr))}
  {properties' : List String → Emitting (List String)} {additional : Attempt TypeExpr}
  {additional' : Emitting String}

theorem emitNamed_follows (name : String) :
    Writes (.ok (.named name)) (emitNamed name) := by
  intro imports
  rfl

theorem emitReference_follows (reference : Value) :
    Writes (ofReference reference) (emitReference reference) := by
  cases reference with
  | atom a =>
      cases a with
      | str text =>
          unfold ofReference emitReference
          dsimp only
          split
          · exact emitNamed_follows _
          · exact .error _
      | _ => exact .error _
  | list items => exact .error _
  | map fields => exact .error _

theorem emitTypeNamed_follows (useDates : Bool) (entries : Entries)
    {array object : Attempt TypeExpr} {array' object' : Emitting String}
    (inArray : Writes array array') (inObject : Writes object object') (name : Value) :
    Writes (typeNamed useDates entries array object name)
      (emitTypeNamed useDates entries array' object' name) := by
  have other : Writes
      (if Entries.has "properties" entries then object else .ok .unknown)
      (if Entries.has "properties" entries then object' else emitPlain (.ok .unknown)) := by
    split
    · exact inObject
    · exact .unknown
  cases name with
  | atom a =>
      cases a with
      | str known =>
          unfold typeNamed emitTypeNamed
          dsimp only
          split
          · exact .plain (stringType_yields useDates _)
          split
          · exact .primitive .number
          split
          · exact .primitive .boolean
          split
          · exact .primitive .null
          split
          · exact inArray
          split
          · exact inObject
          · exact other
      | _ => exact other
  | list items => exact .error _
  | map fields => exact .error _

theorem emitDeclared_follows (entries : Entries)
    (each : ∀ required, WritesMembers (properties required) (properties' required)) :
    WritesMembers (declaredMembers entries properties) (emitDeclared entries properties') := by
  unfold declaredMembers emitDeclared
  split
  · exact .after each
  · exact .ok rfl rfl

theorem emitOthers_follows (entries : Entries) (inside : Writes additional additional') :
    WritesMembers (otherMembers entries additional) (emitOthers entries additional') := by
  have free : WritesMembers
      (.ok (if Entries.given "properties" entries then [] else [(.index, .unknown)]))
      (pure (if Entries.given "properties" entries then []
        else [memberText .index unknownText])) := by
    split
    · exact .ok rfl rfl
    · exact .ok rfl rfl
  unfold otherMembers emitOthers
  rcases Entries.get? "additionalProperties" entries with _ | (a | items | (_ | ⟨entry, rest⟩))
  · exact free
  · cases a with
    | bool allowed =>
        cases allowed with
        | false => exact .ok rfl rfl
        | true => exact free
    | _ => exact free
  · exact free
  · exact free
  · exact inside.map (fun e => rfl) fun e => by simp [memberNames]

theorem emitObject_follows (entries : Entries)
    (each : ∀ required, WritesMembers (properties required) (properties' required))
    (inside : Writes additional additional') :
    Writes (objectType entries properties additional)
      (emitObject entries properties' additional') := by
  rw [objectType_eq]
  refine (emitDeclared_follows entries each).both (emitOthers_follows entries inside) ?_ ?_
  · intro members others
    rw [TypeExpr.render, TypeExpr.renderMembers_eq, ← List.map_append]
    rfl
  · intro members others
    rw [TypeExpr.names, namesOfMembers_eq, List.flatMap_append]

theorem render_union (es : List TypeExpr) :
    (TypeExpr.union es).render = unionText (es.map TypeExpr.render) := by
  rw [TypeExpr.render, TypeExpr.renderList_eq]
  rfl

theorem render_intersection (es : List TypeExpr) :
    (TypeExpr.intersection es).render = intersectionText (es.map TypeExpr.render) := by
  rw [TypeExpr.render, TypeExpr.renderList_eq]
  rfl

theorem render_choice (es : List TypeExpr) :
    (TypeExpr.choice es).render = choiceText (es.map TypeExpr.render) := by
  rw [TypeExpr.render, TypeExpr.renderList_eq]
  rfl

theorem render_withNull (entries : Entries) (e : TypeExpr) :
    (withNull entries e).render = nullText entries e.render := by
  unfold withNull nullText
  split
  · rfl
  · rfl

end Parts

mutual

/-- **One pass does what reading and rendering do**, and records the names of the type. -/
theorem emit_follows (useDates inlineNamed : Bool) :
    (v : Value) → Writes (read useDates inlineNamed v) (emit useDates inlineNamed v)
  | .atom _ => .unknown
  | .list _ => .unknown
  | .map entries => by
    by_cases empty : entries = []
    · subst empty
      exact .unknown
    have joined {key : String} {f : List TypeExpr → TypeExpr} {g : List String → String}
        (texts : ∀ es, (f es).render = g (es.map TypeExpr.render))
        (keeps : ∀ es, (f es).names = TypeExpr.namesOfList es) :
        Writes ((readMembersAt useDates key entries).map f)
          (g <$> emitMembersAt useDates key entries) :=
      (emitMembersAt_follows useDates key entries).map texts fun es => by rw [keeps, namesOfList_eq]
    have array : Writes ((readAt useDates "items" entries).map .array)
        (arrayText <$> emitAt useDates "items" entries) :=
      (emitAt_follows useDates "items" entries).map (fun e => rfl) fun e => rfl
    have object := emitObject_follows entries
      (fun required => emitPropertiesAt_follows useDates required entries)
      (emitAt_follows useDates "additionalProperties" entries)
    rw [read_map_eq useDates inlineNamed empty]
    unfold emit
    rw [if_neg (by simpa using empty)]
    refine Follows.map ?_ (render_withNull entries) (names_withNull entries)
    cases ruleFor inlineNamed entries with
    | reference => exact emitReference_follows _
    | name => exact emitNamed_follows _
    | oneOf => exact joined (fun es => render_union es) fun es => rfl
    | anyOf => exact joined (fun es => render_union es) fun es => rfl
    | allOf => exact joined (fun es => render_intersection es) fun es => rfl
    | enum => exact .plain ((literals_yields _).map namesOfList_eq)
    | const => exact .plain (literal_yields _)
    | type =>
        have named := emitTypeNamed_follows useDates entries array object
        unfold readBy
        dsimp only
        cases Entries.get? "type" entries with
        | none => exact named _
        | some type =>
            cases type with
            | list types =>
                exact (Follows.mapM fun name _ => named name).map render_choice namesOfList_eq
            | atom a => exact named _
            | map fields => exact named _

theorem emitAt_follows (useDates : Bool) (key : String) :
    (entries : List (Scalar × Value)) →
      Writes (readAt useDates key entries) (emitAt useDates key entries)
  | [] => .unknown
  | (k, v) :: rest => by
    rw [readAt, emitAt]
    split
    · exact emit_follows useDates false v
    · exact emitAt_follows useDates key rest

theorem emitMembersAt_follows (useDates : Bool) (key : String) :
    (entries : List (Scalar × Value)) →
      WritesAll (readMembersAt useDates key entries) (emitMembersAt useDates key entries)
  | [] => .ok rfl rfl
  | (k, v) :: rest => by
    unfold readMembersAt emitMembersAt
    split
    · cases v with
      | list items => exact emitItems_follows useDates items
      | atom a => exact .unlisted (Value.atom a).elements?
      | map fields => exact .unlisted (Value.map fields).elements?
    · exact emitMembersAt_follows useDates key rest

theorem emitItems_follows (useDates : Bool) :
    (items : List Value) → WritesAll (readItems useDates items) (emitItems useDates items)
  | [] => .ok rfl rfl
  | v :: rest => by
    rw [readItems, emitItems]
    exact (emit_follows useDates false v).both (emitItems_follows useDates rest)
      (fun _ _ => rfl) fun _ _ => List.flatMap_cons

theorem emitPropertiesAt_follows (useDates : Bool) (required : List String) :
    (entries : List (Scalar × Value)) →
      WritesMembers (readPropertiesAt useDates required entries)
        (emitPropertiesAt useDates required entries)
  | [] => .ok rfl rfl
  | (k, v) :: rest => by
    unfold readPropertiesAt emitPropertiesAt
    split
    · cases v with
      | map properties => exact emitProperties_follows useDates required properties
      | atom a => exact .error _
      | list items => exact .error _
    · exact emitPropertiesAt_follows useDates required rest

theorem emitProperties_follows (useDates : Bool) (required : List String) :
    (properties : List (Scalar × Value)) →
      WritesMembers (readProperties useDates required properties)
        (emitProperties useDates required properties)
  | [] => .ok rfl rfl
  | (k, v) :: rest => by
    cases k with
    | str name =>
        rw [readProperties, emitProperties]
        exact (emit_follows useDates false v).both (emitProperties_follows useDates required rest)
          (fun _ _ => rfl) fun _ _ => List.flatMap_cons
    | _ => exact .error _

end

end Schema

/-- An emitter, with the models that it has recorded. -/
structure Emitter where
  useDates : Bool
  imports : ImportSet := {}

namespace Emitter

/-- Forget what was recorded, and write the type of a schema. -/
def write (useDates : Bool) (schema : Value) (inlineNamed : Bool) : Emitting ResolvedType := do
  set ({} : ImportSet)
  let text ← Schema.emit useDates inlineNamed schema
  return ⟨text, (← get).refs⟩

/-- One call, and the emitter behind it. -/
def resolve (e : Emitter) (schema : Value) (inlineNamed : Bool) :
    Attempt ResolvedType × Emitter :=
  let (result, imports) := write e.useDates schema inlineNamed e.imports
  (result, { e with imports })

/-- One call after another, whether or not they fail. -/
def resolveAll (e : Emitter) : List (Value × Bool) → List (Attempt ResolvedType)
  | [] => []
  | (schema, inlineNamed) :: rest =>
    (e.resolve schema inlineNamed).1 :: resolveAll (e.resolve schema inlineNamed).2 rest

/-- A call has the result of reading the schema, whatever the emitter has recorded before. -/
theorem resolve_result (e : Emitter) (schema : Value) (inlineNamed : Bool) :
    (e.resolve schema inlineNamed).1 = Schema.resolve e.useDates schema inlineNamed := by
  have follows := Schema.emit_follows e.useDates inlineNamed schema {}
  show (write e.useDates schema inlineNamed e.imports).1 = _
  unfold write Schema.resolve
  have forgets : (set ({} : ImportSet) : Emitting Unit) e.imports = (.ok (), {}) := rfl
  rw [Attempt.bind_apply_of_ok forgets]
  cases read : Schema.read e.useDates inlineNamed schema with
  | error failure =>
      rw [read] at follows
      exact Attempt.bind_apply_of_error follows
  | ok type =>
      rw [read] at follows
      rw [Attempt.bind_apply_of_ok follows]
      rfl

end Emitter

/-- The imports of a type are the models of the nodes that its schema is written with by name. -/
theorem Schema.mem_imports_iff {useDates inlineNamed : Bool} {schema : Value} {type : ResolvedType}
    (run : Schema.resolve useDates schema inlineNamed = .ok type) (ref : ImportRef) :
    ref ∈ type.imports ↔
      ∃ name, Schema.EmitsName inlineNamed schema name ∧ ref = .model (Naming.pascal name) := by
  obtain ⟨e, read, rfl⟩ := Attempt.map_eq_ok run
  show ref ∈ e.imports ↔ _
  rw [TypeExpr.imports, mem_distinctRefs, List.mem_map]
  simp only [mem_names_iff read, eq_comm]

namespace Emitter

/-- **One emitter serves many schemas.**  Whatever it was asked before, and whether or not that
failed, a call ends as that of a new emitter does: as reading the schema and rendering its type.
The imports of a result are, each once, the models of the nodes that are written by name. -/
theorem resolveAll_fresh (e : Emitter) (calls : List (Value × Bool)) :
    List.Forall₂
      (fun (call : Value × Bool) (result : Attempt ResolvedType) =>
        result = (Emitter.resolve ⟨e.useDates, {}⟩ call.1 call.2).1 ∧
        result = Schema.resolve e.useDates call.1 call.2 ∧
        ∀ type, result = .ok type → type.imports.Nodup ∧
          ∀ ref, ref ∈ type.imports ↔
            ∃ name, Schema.EmitsName call.2 call.1 name ∧ ref = .model (Naming.pascal name))
      calls (e.resolveAll calls) := by
  induction calls generalizing e with
  | nil => exact .nil
  | cons call rest ih =>
      obtain ⟨schema, inlineNamed⟩ := call
      refine .cons ⟨?_, e.resolve_result schema inlineNamed, fun type run => ?_⟩ ?_
      · rw [e.resolve_result, resolve_result]
      · rw [e.resolve_result] at run
        refine ⟨?_, Schema.mem_imports_iff run⟩
        obtain ⟨read, -, rfl⟩ := Attempt.map_eq_ok run
        exact nodup_distinctRefs _
      · exact ih (e.resolve schema inlineNamed).2

/-- A schema by the name of `Pet`. -/
def petNode : Value := .object [(schemaNameKey, .str "Pet"), ("type", .str "string")]

/-- An object with a reference to somewhere else, behind a property by the name of `Pet`. -/
def strayNode : Value := .object [("type", .str "object"), ("properties", .object [
  ("pet", petNode), ("home", .object [("$ref", .str "other.json#/Home")])])]

/-- A date, or a schema whose type is written like that of a date. -/
def dateNode : Value := .object [("oneOf", .list [
  .object [("type", .str "string"), ("format", .str "date")],
  .object [("$ref", .str "#/components/schemas/date")]])]

/-- The first call fails and leaves a model behind, which no later one imports for that; the
third has a model of which nothing is seen in the text. -/
theorem resolveAll_fresh_pets :
    (Emitter.resolve ⟨true, {}⟩ strayNode false).2.imports = ⟨[.model "Pet"]⟩ ∧
    ∃ failure,
      Emitter.resolveAll ⟨true, {}⟩
        [(strayNode, false), (petNode, true), (dateNode, false), (petNode, false)] =
          [.error failure, .ok ⟨"string", []⟩, .ok ⟨"Date", [.model "Date"]⟩,
            .ok ⟨"Pet", [.model "Pet"]⟩] ∧
      (∀ name, ¬ Schema.EmitsName true petNode name) ∧
      ∃ name, Schema.EmitsName false dateNode name ∧ Naming.pascal name = "Date" := by
  refine ⟨rfl, _, rfl, ?_⟩
  have each := resolveAll_fresh ⟨true, {}⟩
    [(strayNode, false), (petNode, true), (dateNode, false), (petNode, false)]
  obtain ⟨-, each⟩ := List.forall₂_cons.mp each
  obtain ⟨⟨-, -, inlined⟩, each⟩ := List.forall₂_cons.mp each
  obtain ⟨⟨-, -, merged⟩, -⟩ := List.forall₂_cons.mp each
  constructor
  · intro name emits
    have among := ((inlined ⟨"string", []⟩ rfl).2 _).mpr ⟨name, emits, rfl⟩
    cases among
  · obtain ⟨name, emits, same⟩ :=
      ((merged ⟨"Date", [.model "Date"]⟩ rfl).2 (.model "Date")).mp List.mem_cons_self
    exact ⟨name, emits, (congrArg ImportRef.name same).symm⟩

end Emitter

end ClientForge
