/-
# ClientForge.Files.Structured -- files that hold one document

A file named as YAML is read as YAML.  Every other file is read as JSON, and as YAML where
it is no JSON; a number with too many digits is an error in both.
-/
import ClientForge.Files.Table
import ClientForge.Json.Reader
import ClientForge.Yaml.Reader

namespace ClientForge.Files

set_option autoImplicit false

/-- The endings of YAML files. -/
def isYamlEnding (ending : String) : Bool := ending == ".yaml" || ending == ".yml"

/-- The document that a text writes, in the format that its ending asks for. -/
def parseStructured (ending text : String) : Attempt Value :=
  if isYamlEnding ending then Yaml.read text
  else
    match Json.read text with
    | .ok value => .ok value
    | .error .malformed => Yaml.read text
    | .error (.number fault) => .error (.badInteger fault)

/-- The document of the file that a path leads to. -/
def FileTable.readStructured (t : FileTable) (p : Path) : Attempt Value := do
  parseStructured p.suffix (← t.readText p)

/-- The documents of all files that hold one. -/
def FileTable.documents (t : FileTable) : List Value :=
  t.files.filterMap fun entry => (t.readStructured (.ofPlace entry.1)).toOption

end ClientForge.Files
