/-
# ClientForge.Config.Reader -- reading settings

Settings are checked when they are read: every key that is present has to have a value of
the right kind, and a value that ends up in the generated code has to have a literal form
(`checkLiteral`).  The settings for an operation are checked in the same way, on top of the
global ones; they may exchange the global mutator and never drop it.

`Config.overrideFor` applies the layers to one operation.
-/
import ClientForge.Config.Override
import ClientForge.Files.Structured
import ClientForge.Operation

namespace ClientForge

set_option autoImplicit false

/-- Fail because of a setting. -/
def rejectSetting {α : Type} (fault : ConfigFault) : Attempt α := reject (.config fault)

namespace Config

mutual

/-- A value that has a literal form; `place` is where it stands. -/
def checkLiteral (place : String) : Value → Attempt Unit
  | .atom (.date _) => rejectSetting (.noLiteralForm place "date")
  | .atom (.moment _) => rejectSetting (.noLiteralForm place "datetime")
  | .atom _ => .ok ()
  | .list items => checkItems place items
  | .map entries => checkEntries place entries

def checkItems (place : String) : List Value → Attempt Unit
  | [] => .ok ()
  | v :: rest => do
    checkLiteral place v
    checkItems place rest

def checkEntries (place : String) : List (Scalar × Value) → Attempt Unit
  | [] => .ok ()
  | (k, v) :: rest =>
    match k with
    | .str name => do
      checkLiteral (place ++ "." ++ name) v
      checkEntries place rest
    | _ => rejectSetting (.keyNotString place)

end

/-- Whether one text is part of another. -/
def occursIn (part : List Char) : List Char → Bool
  | [] => part.isEmpty
  | c :: rest => part.isPrefixOf (c :: rest) || occursIn part rest

/-- The value of a setting.  Settings that were never checked may be no map at all; they
have no settings then, and a list or a text that holds the key is refused. -/
def setting? (raw : Value) (key : String) : Attempt (Option Value) :=
  match raw with
  | .map entries => .ok (Entries.get? key entries)
  | .list items =>
    if items.any fun | .atom (.str s) => s == key | _ => false then illShaped else .ok none
  | .atom (.str s) => if occursIn key.toList s.toList then illShaped else .ok none
  | .atom _ => illShaped

def requestOptions : Value → Attempt RequestOptions
  | .atom (.bool flag) => .ok (.allowed flag)
  | .map options => do
    checkEntries "requestOptions" options
    return .preset options
  | _ => rejectSetting .requestOptionsShape

def flag (key : String) : Value → Attempt Bool
  | .atom (.bool b) => .ok b
  | _ => rejectSetting (.flagNotBoolean key)

/-- A field of a mutator that has to be a text. -/
def mutatorField (key : String) (entries : Entries) : Attempt String :=
  match Entries.get? key entries with
  | some (.atom (.str s)) =>
    if s = "" then rejectSetting (.mutatorFieldMissing key) else .ok s
  | _ => rejectSetting (.mutatorFieldMissing key)

def mutator : Value → Attempt (Option Mutator)
  | .atom .null => .ok none
  | .map entries => do
    let name ← mutatorField "name" entries
    let path ← mutatorField "path" entries
    let bodyTypeName ←
      match (Entries.get? "bodyTypeName" entries).bind Value.present? with
      | none => pure none
      | some (.atom (.str s)) => pure (some s)
      | some _ => rejectSetting .bodyTypeNotString
    return some {
      name, path, bodyTypeName
      isDefault := Entries.given "default" entries
      hasSecondArg := Entries.given "hasSecondArg" entries
      hasErrorType := Entries.given "hasErrorType" entries }
  | _ => rejectSetting .mutatorNotObject

def swrOptions : Value → Attempt (Option Entries)
  | .map entries =>
    match (Entries.get? "options" entries).bind Value.present? with
    | none => .ok none
    | some (.map options) => do
      checkEntries "swr.options" options
      return some options
    | some _ => rejectSetting .swrOptionsNotObject
  | _ => rejectSetting .swrNotObject

/-- A setting on top of what it replaces. -/
def layered {α : Type} (raw : Value) (key : String) (read : Value → Attempt α) (base : α) :
    Attempt α := do
  match ← setting? raw key with
  | some v => read v
  | none => return base

/-- Settings on top of others. -/
def applySettings (base : Override) (raw : Value) : Attempt Override := do
  return {
    requestOptions := ← layered raw "requestOptions" requestOptions base.requestOptions
    formData := ← layered raw "formData" (flag "formData") base.formData
    formUrlEncoded := ←
      layered raw "formUrlEncoded" (flag "formUrlEncoded") base.formUrlEncoded
    useDates := ← layered raw "useDates" (flag "useDates") base.useDates
    mutator := ← layered raw "mutator" mutator base.mutator
    swrOptions := ← layered raw "swr" swrOptions base.swrOptions }

/-- Check the settings for one operation. -/
def checkOperation (override : Override) (id : Scalar) (raw : Value) : Attempt Unit := do
  match ← setting? raw "mutator" with
  | some (.atom .null) => rejectSetting (.nullMutator id.shown)
  | _ => discard (applySettings override raw)

/-- Set the settings for an operation where there are some, or at the end. -/
def putOperation (id : String) (raw : Value) :
    List (String × Value) → List (String × Value)
  | [] => [(id, raw)]
  | entry :: rest =>
    if entry.1 = id then (id, raw) :: rest else entry :: putOperation id raw rest

/-- The settings that a document holds. -/
def ofValue (data : Value) : Attempt Config := do
  let entries ← Api.asMap data
  match (Entries.get? "override" entries).getD (.map []) with
  | .map raw =>
    match (Entries.get? "operations" raw).getD (.map []) with
    | .map operations =>
      if operations.all fun entry => entry.2 matches .map _ then
        let override ← applySettings {} (.map raw)
        operations.forM fun (id, raw) => checkOperation override id raw
        return {
          override
          operations :=
            operations.foldl (fun done (id, raw) => putOperation id.shown raw done) [] }
      else rejectSetting .operationsNotObjects
    | _ => rejectSetting .operationsNotObjects
  | _ => rejectSetting .overrideNotObject

/-- The settings in a file; an empty file has none. -/
def load (files : Files.FileTable) (path : String) : Attempt Config :=
  match files.readStructured (.ofText path) with
  | .error (.reported report) => rejectSetting (.unreadable path report.text)
  | .error (.file fault shown) => rejectSetting (.unreadable path (fault.message shown))
  | .error failure => .error failure
  | .ok (.atom .null) => .ok {}
  | .ok (.map entries) => ofValue (.map entries)
  | .ok _ => rejectSetting .notObject

/-- The extension of an operation that sets a field, on top of what it replaces. -/
def extended {α : Type} (extensions : Entries) (key : String) (read : Value → Attempt α)
    (base : α) : Attempt α :=
  match Entries.get? key extensions with
  | some v => read v
  | none => .ok base

/-- The settings for the operation with an id, without its extensions. -/
def settingsFor (config : Config) (id : Option Value) : Attempt Override :=
  match id with
  | none => .ok config.override
  | some v =>
    if !v.truthy then .ok config.override
    else
      match v with
      | .atom (.str id) =>
        match config.operations.lookup id with
        | none => .ok config.override
        | some raw => do
          let override ← applySettings config.override raw
          if config.hasGlobalMutator && override.mutator.isNone then
            rejectSetting (.droppedMutator id)
          else return override
      | .atom _ => .ok config.override
      | _ => illShaped

/-- The settings for one operation. -/
def overrideFor (config : Config) (id : Option Value) (extensions : Entries) :
    Attempt Override := do
  let base ← settingsFor config id
  return { base with
    requestOptions := ←
      extended extensions "x-hookify-request-options" requestOptions base.requestOptions
    formData := ←
      extended extensions "x-hookify-form-data" (flag "x-hookify-form-data") base.formData
    formUrlEncoded := ←
      extended extensions "x-hookify-form-url-encoded" (flag "x-hookify-form-url-encoded")
        base.formUrlEncoded }

end Config

end ClientForge
