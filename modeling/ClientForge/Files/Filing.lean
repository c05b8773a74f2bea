/-
# ClientForge.Files.Filing -- steps that write files

A filing step reads and changes a table of files, and like every step it may fail and leaves
records in the log.  What it has written stays written when it fails later on
(`bind_fail`).
-/
import ClientForge.Files.Table
import ClientForge.Traced

namespace ClientForge.Files

set_option autoImplicit false

/-- A step over a table of files. -/
structure Filing (α : Type) where
  run : FileTable → FileTable × Traced α

namespace Filing

variable {α β : Type}

protected def pure (a : α) : Filing α := ⟨fun files => (files, pure a)⟩

protected def bind (x : Filing α) (f : α → Filing β) : Filing β := ⟨fun files =>
  let (files, first) := x.run files
  match first.result with
  | .ok a =>
    let (files, second) := (f a).run files
    (files, ⟨first.log ++ second.log, second.result⟩)
  | .error e => (files, ⟨first.log, .error e⟩)⟩

instance : Monad Filing where
  pure := Filing.pure
  bind := Filing.bind

/-- A step that leaves the files alone. -/
def ofTraced (x : Traced α) : Filing α := ⟨fun files => (files, x)⟩

instance : MonadLift Traced Filing := ⟨ofTraced⟩

/-- A step that only looks at the files. -/
def inspect (look : FileTable → Traced α) : Filing α := ⟨fun files => (files, look files)⟩

/-- A step that changes the files if it succeeds. -/
def update (change : FileTable → Attempt FileTable) : Filing Unit := ⟨fun files =>
  match change files with
  | .ok changed => (changed, pure ())
  | .error e => (files, .fail e)⟩

/-- Make a folder, and all folders on the way to it. -/
def makeFolder (path : Path) : Filing Unit := update fun files => files.makeFolder path

/-- Write a text to a file. -/
def writeText (path : Path) (text : String) : Filing Unit :=
  update fun files => files.writeText path text

theorem bind_fail {x : Filing α} {files : FileTable} {e : Failure}
    (h : (x.run files).2.result = .error e) (f : α → Filing β) :
    (x >>= f).run files = ((x.run files).1, ⟨(x.run files).2.log, .error e⟩) := by
  simp [Bind.bind, Filing.bind, h]

theorem bind_ok {x : Filing α} {files : FileTable} {a : α}
    (h : (x.run files).2.result = .ok a) (f : α → Filing β) :
    (x >>= f).run files =
      (((f a).run (x.run files).1).1,
        ⟨(x.run files).2.log ++ ((f a).run (x.run files).1).2.log,
          ((f a).run (x.run files).1).2.result⟩) := by
  simp [Bind.bind, Filing.bind, h]

end Filing

end ClientForge.Files
