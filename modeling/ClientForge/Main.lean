/-
# ClientForge.Main -- the command on a real disk

The command itself works on a table of files.  Here the table is filled with what the
command may want to read, the command is run, and what it wrote is put on disk.  Which files
a document refers to shows only when it is read, so reading is repeated as long as it asks
for a file that is there.
-/
import ClientForge.CommandLine.Run

namespace ClientForge.CommandLine

set_option autoImplicit false

open Files

/-- Put what stands at a place on disk into the table, be it a file or a folder. -/
def takeIn (files : FileTable) (place : Place) : IO FileTable := do
  let path := (← IO.currentDir) / (Path.ofPlace place).text
  if ← path.isDir then return { files with folders := place :: files.folders }
  else if ← path.pathExists then
    return files.write place (← IO.FS.readBinFile path).toList
  else return files

/-- Put what stands on the way to a place into the table. -/
def takeInWay (files : FileTable) (place : Place) : IO FileTable :=
  (List.range (place.length + 1)).foldlM (fun files n => takeIn files (place.take n)) files

/-- Put the files that a document refers to into the table. -/
partial def takeInReferences (spec : String) (files : FileTable) : IO FileTable := do
  match (Document.load ⟨files, []⟩ (.location spec) none).result with
  | .error (.file .missing path) =>
    let place := (Path.ofText path).place files.workdir
    let more ← takeInWay files place
    if more.isFile place then takeInReferences spec more else return files
  | _ => return files

/-- What the command may write; nothing if it is not told where. -/
def outputs (a : Arguments) : List Path :=
  match packagePlace a, flavors a with
  | .ok place, .ok flavors =>
    Package.folder place :: Package.modelsPath place :: flavors.map (Package.clientPath place)
  | _, _ => []

/-- The table that the command needs. -/
def gather (workdir : Place) (a : Arguments) : IO FileTable := do
  let wanted := .ofText a.spec :: (outputs a ++ a.config.toList ++ a.tsconfig.toList)
  let files ← wanted.foldlM (fun files path => takeInWay files (path.place workdir))
    (⟨workdir, [], []⟩ : FileTable)
  takeInReferences a.spec files

/-- Put the files that the command wrote on disk. -/
def putOut (before after : FileTable) : IO Unit := do
  for (place, bytes) in after.files do
    if before.contents? place != some bytes then
      let root ← IO.currentDir
      IO.FS.createDirAll (root / (Path.ofPlace place.dropLast).text)
      IO.FS.writeBinFile (root / (Path.ofPlace place).text) (ByteArray.mk bytes.toArray)

/-- Run the command and return its exit code. -/
def onDisk (arguments : List String) : IO UInt32 := do
  let workdir := (Path.ofText (← IO.currentDir).toString).parts
  let files ←
    match Arguments.read Registry.builtIn.available arguments with
    | .ok a => gather workdir a
    | .error _ => pure ⟨workdir, [], []⟩
  let (after, result) := run [] [] arguments files
  putOut files after
  match result with
  | .ok (.usage .help) =>
    IO.println usageText
    return 0
  | .ok (.usage .invalid) =>
    IO.eprintln usageText
    return 2
  | .ok (.ended code output errors) =>
    for line in errors do IO.eprintln line
    for line in output do IO.println line
    return code.toUInt32
  | .error failure =>
    IO.eprintln ((failure.message?).getD "The document has a value of the wrong shape")
    return 1

end ClientForge.CommandLine

/-- The command. -/
def main (arguments : List String) : IO UInt32 := ClientForge.CommandLine.onDisk arguments
