/-
# ClientForge.Reference.Resolver -- inlining references

A node `$ref: r` stands for a part of this document or of another file.  Resolving a
document replaces every such node by the resolved part:

* other keys next to `$ref` are set on the part, which then has to be a map;
* a part that is a component schema gets the last segment of its reference as a name
  (`schemaNameKey`), unless it has one;
* a reference that is already being expanded is left as it stands, so a recursive schema is
  cut off at its second occurrence.

Whether a reference is being expanded is a question about its text, and a bare fragment
always means the document that is being resolved.

Every document that is read from a file is kept in `Resolver.cache`, and the references
being expanded in `Resolver.active`; both survive a failure.

`expand` walks over one value and leaves references to a function that it is given;
`openReference` is that function for a bounded number of nested expansions.  No reference
is expanded inside itself, so the references of the documents at hand bound that number
(`Resolver.depth`).
-/
import ClientForge.Address
import ClientForge.Files.Structured
import ClientForge.Reference.Pointer

namespace ClientForge

set_option autoImplicit false

open Files

/-- The key that names a component schema after its reference is gone. -/
def schemaNameKey : String := "x-hookify-schema-name"

/-- How references to component schemas begin. -/
def schemaReferenceStart : String := "#/components/schemas/"

def isSchemaReference (reference : String) : Bool :=
  schemaReferenceStart.toList.isPrefixOf reference.toList

/-- The references of a document, everywhere in it. -/
def Value.references : Value → List String
  | .atom _ => []
  | .list items => ofItems items
  | .map entries => ofEntries entries
where
  ofItems : List Value → List String
    | [] => []
    | v :: rest => v.references ++ ofItems rest
  ofEntries : List (Scalar × Value) → List String
    | [] => []
    | (k, v) :: rest =>
      (match k, v with
        | .str "$ref", .atom (.str reference) => [reference]
        | _, _ => []) ++ v.references ++ ofEntries rest

/-- A document in which references are inlined, and what is known about other files. -/
structure Resolver where
  document : Value
  base : Option Path
  cache : List (Place × Entries) := []
  active : List String := []

/-- A step of the expansion; what it learns about files is kept when it fails. -/
abbrev Expanding := ExceptT Failure (StateM Resolver)

namespace Resolver

/-- A new resolver knows no other file. -/
def start (document : Value) (base : Option Path) : Resolver := ⟨document, base, [], []⟩

/-- Run a step while a reference counts as being expanded. -/
def withActive {α : Type} (reference : String) (step : Expanding α) : Expanding α :=
  fun r =>
    let (result, r) := step { r with active := reference :: r.active }
    (result, { r with active := r.active.tail })

/-- The document of a file, from the cache or from the file itself. -/
def loadDocument (files : FileTable) (place : Place) : Expanding Entries := do
  match (← get).cache.lookup place with
  | some entries => return entries
  | none =>
    let path := Path.ofPlace place
    match ← liftM (files.readStructured path) with
    | .map entries =>
      modify fun r => { r with cache := r.cache ++ [(place, entries)] }
      return entries
    | _ => throw (.of (.referencedDocumentNotObject path.text))

/-- The name that a reference gives to the schema it leads to. -/
def nameOf (reference : String) : String :=
  String.ofList ((Text.splitOn '/' reference.toList).getLastD [])

/-- A component schema with the name that its reference gives it. -/
def tagged (reference : String) (target : Value) : Value :=
  match target with
  | .map entries =>
    if isSchemaReference reference && !Entries.has schemaNameKey entries then
      .map (entries ++ [(.str schemaNameKey, .str (nameOf reference))])
    else target
  | _ => target

/-- The document that an address leads to, seen from a folder, and the folder that it lies
in; the empty address is the document that is being resolved. -/
def documentAt (files : FileTable) (address : String) (base : Path) :
    Expanding (Value × Path) := do
  if address = "" then return ((← get).document, base)
  else
    let path := base.join (.ofText address)
    if path.hasNull then throw .nullInPath
    else
      let place := path.place files.workdir
      let entries ← loadDocument files place
      return (.map entries, .ofPlace place.dropLast)

/-- The part of a document that a fragment leads to. -/
def partAt (document : Value) (fragment : String) : Attempt Value :=
  if fragment ≠ "" ∧ fragment.toList.head? ≠ some '/' then reject (.unsupportedFragment fragment)
  else Pointer.find document fragment

/-- The part that a reference leads to, and the folder that its own references start from. -/
def target (files : FileTable) (reference : String) (base : Path) :
    Expanding (Value × Path) := do
  let (address, fragment) ← liftM (Address.withoutFragment reference)
  let (document, inner) ← documentAt files address base
  let part ← liftM (partAt document fragment)
  return (tagged reference part, inner)

section Expand

variable (openRef : String → Path → Expanding Value) (base : Path)

mutual

/-- A value with its references inlined, as `openRef` expands them. -/
def expand : Value → Expanding Value
  | .atom a => return .atom a
  | .list items => return .list (← expandItems items)
  | .map entries => do
    match Entries.get? "$ref" entries with
    | none => return .map (← expandEntries entries)
    | some (.atom (.str reference)) =>
      if (← get).active.contains reference then return .map entries
      else
        let part ← openRef reference base
        if entries.length = 1 then return part
        else
          match part with
          | .map fields => return .map (← expandSiblings fields entries)
          | _ => throw (.of .mergeTargetNotObject)
    | some _ => throw (.of .referenceNotString)

def expandItems : List Value → Expanding (List Value)
  | [] => return []
  | v :: rest => do
    let v ← expand v
    let rest ← expandItems rest
    return v :: rest

def expandEntries : List (Scalar × Value) → Expanding Entries
  | [] => return []
  | (k, v) :: rest => do
    let v ← expand v
    let rest ← expandEntries rest
    return (k, v) :: rest

/-- Set the keys next to a reference on the part it leads to. -/
def expandSiblings (fields : Entries) : List (Scalar × Value) → Expanding Entries
  | [] => return fields
  | (k, v) :: rest =>
    if k = .str "$ref" then expandSiblings fields rest
    else do
      let v ← expand v
      expandSiblings (Entries.put k v fields) rest

end

end Expand

/-- What a reference expands to, with so many expansions inside one another at most. -/
def openReference (files : FileTable) : Nat → String → Path → Expanding Value
  | 0, _, _ => throw .illShaped
  | depth + 1, reference, base => do
    let (part, inner) ← target files reference base
    withActive reference (expand (openReference files depth) inner part)

/-- A bound for the number of expansions inside one another: the references of the document,
of the files that are known, and of all files that there are. -/
def depth (files : FileTable) (r : Resolver) : Nat :=
  let known := r.document :: r.cache.map (fun entry => .map entry.2) ++ files.documents
  (known.flatMap Value.references).length + 1

/-- The document with its references inlined. -/
def resolve (files : FileTable) : Expanding Value := do
  let r ← get
  expand (openReference files (r.depth files)) (r.base.getD ⟨false, []⟩) r.document

end Resolver

end ClientForge
