/-
# ClientForge.Files.Table -- a finite table of files

The file system is a value: the bytes of finitely many files, the folders that were made,
and the working directory.  Every folder on the way to a file, or to the working directory,
exists.  Reading walks along the path, so a name below a file or below a missing folder is
refused as such, double dots included, and so is a name or a path that is too long; writing
replaces the bytes of one place and touches no other (`contents?_write_of_ne`).
-/
import ClientForge.Files.Path
import ClientForge.Failure

namespace ClientForge.Files

set_option autoImplicit false

/-- A finite file system. -/
structure FileTable where
  workdir : Place
  files : List (Place × List UInt8)
  folders : List Place
  deriving Inhabited

namespace FileTable

/-- The bytes of a file. -/
def contents? (t : FileTable) (place : Place) : Option (List UInt8) :=
  t.files.lookup place

def isFile (t : FileTable) (place : Place) : Bool := (t.contents? place).isSome

/-- Folders are made, or lie on the way to something. -/
def isFolder (t : FileTable) (place : Place) : Bool :=
  place.isPrefixOf t.workdir || t.folders.any (place.isPrefixOf ·) ||
    t.files.any fun entry => place.isPrefixOf entry.1 && entry.1 != place

/-- The most bytes that a name may have. -/
def longestName : Nat := 255

/-- The most bytes that a path may have. -/
def longestPath : Nat := 4095

/-- The place that a walk along the names from a place ends at. -/
def walk (t : FileTable) : Place → List String → Except FileFault Place
  | here, [] => .ok here
  | here, part :: rest =>
    if t.isFile here then .error .notFolder
    else if !t.isFolder here then .error .missing
    else if part = ".." then walk t here.dropLast rest
    else if longestName < part.utf8ByteSize then .error .tooLong
    else walk t (here ++ [part]) rest

/-- The place that a path leads to. -/
def locate (t : FileTable) (p : Path) : Except FileFault Place :=
  if longestPath < p.text.utf8ByteSize then .error .tooLong
  else t.walk (if p.absolute then [] else t.workdir) p.parts

/-- The place that a path leads to; no name on the way may hold the null character. -/
def reach (t : FileTable) (p : Path) : Attempt Place :=
  if p.hasNull then .error .nullInPath
  else (t.locate p).mapError fun fault => .file fault p.text

/-- The bytes that a path leads to. -/
def readBytes (t : FileTable) (p : Path) : Attempt (List UInt8) := do
  let place ← t.reach p
  match t.contents? place with
  | some bytes => .ok bytes
  | none =>
    if t.isFolder place then .error (.file .isFolder p.text)
    else .error (.file .missing p.text)

/-- The text that a path leads to. -/
def readText (t : FileTable) (p : Path) : Attempt String := do
  let bytes ← t.readBytes p
  match Text.decodeUtf8 bytes with
  | .ok text => .ok text
  | .error fault => .error (.notUtf8 fault)

/-- Put bytes under a place, where the place stands or at the end. -/
def putBytes (place : Place) (bytes : List UInt8) :
    List (Place × List UInt8) → List (Place × List UInt8)
  | [] => [(place, bytes)]
  | entry :: rest =>
    if entry.1 = place then (place, bytes) :: rest else entry :: putBytes place bytes rest

/-- The table with other bytes at a place. -/
def write (t : FileTable) (place : Place) (bytes : List UInt8) : FileTable :=
  { t with files := putBytes place bytes t.files }

/-- The table without a file; the folder that it was in stays. -/
def delete (t : FileTable) (place : Place) : FileTable :=
  { t with
    files := t.files.filter fun entry => entry.1 != place
    folders := place.dropLast :: t.folders }

/-- The table with a folder and all folders on the way to it. -/
def makeFolder (t : FileTable) (p : Path) : Attempt FileTable :=
  if p.hasNull then .error .nullInPath
  else if longestPath < p.text.utf8ByteSize then .error (.file .tooLong p.text)
  else go t (if p.absolute then [] else t.workdir) p.parts
where
  go (t : FileTable) (here : Place) : List String → Attempt FileTable
    | [] =>
      if t.isFile here then .error (.file .exists p.text)
      else if t.isFolder here then .ok t
      else .ok { t with folders := here :: t.folders }
    | part :: rest =>
      if t.isFile here then .error (.file .notFolder p.text)
      else
        let t := if t.isFolder here then t else { t with folders := here :: t.folders }
        if longestName < part.utf8ByteSize then .error (.file .tooLong p.text)
        else go t (if part = ".." then here.dropLast else here ++ [part]) rest

/-- The table with a text at a path. -/
def writeText (t : FileTable) (p : Path) (text : String) : Attempt FileTable := do
  let place ← t.reach p
  if t.isFolder place && !t.isFile place then .error (.file .isFolder p.text)
  else .ok (t.write place text.toUTF8.toList)

theorem lookup_putBytes (place other : Place) (bytes : List UInt8)
    (files : List (Place × List UInt8)) :
    (putBytes place bytes files).lookup other =
      if other = place then some bytes else files.lookup other := by
  induction files with
  | nil =>
    by_cases h : other = place
    · simp [putBytes, h]
    · simp [putBytes, List.lookup_cons, h, beq_eq_false_iff_ne.2 h]
  | cons entry rest ih =>
    obtain ⟨here, old⟩ := entry
    by_cases hp : here = place
    · subst hp
      by_cases h : other = here
      · simp [putBytes, h]
      · simp [putBytes, List.lookup_cons, h, beq_eq_false_iff_ne.2 h]
    · by_cases h : other = here
      · subst h; simp [putBytes, hp]
      · simp [putBytes, List.lookup_cons, hp, beq_eq_false_iff_ne.2 h, ih]

@[simp] theorem contents?_write_self (t : FileTable) (place : Place) (bytes : List UInt8) :
    (t.write place bytes).contents? place = some bytes := by
  simp [write, contents?, lookup_putBytes]

/-- Writing one place leaves the bytes of every other place alone. -/
theorem contents?_write_of_ne (t : FileTable) {place other : Place} (h : other ≠ place)
    (bytes : List UInt8) : (t.write place bytes).contents? other = t.contents? other := by
  simp [write, contents?, lookup_putBytes, h]

end FileTable

end ClientForge.Files
