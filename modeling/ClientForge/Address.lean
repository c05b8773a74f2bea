/-
# ClientForge.Address -- web addresses and references

An address has six parts: scheme, host, path, parameters, query and fragment.  Any text is
an address as long as its host is a possible one (`Address.checkHost`).  Before it is cut,
controls and blanks at its start are dropped, and tabs and line ends everywhere.

A reference is split by `Address.withoutFragment` into the address of a document and the
fragment that names a part of it; a reference without a number sign is taken as it stands.
-/
import ClientForge.Text.CaseMap
import ClientForge.Address.Host

namespace ClientForge

set_option autoImplicit false

/-- The six parts of an address. -/
structure Address where
  scheme : List Char
  host : List Char
  path : List Char
  parameters : List Char
  query : List Char
  fragment : List Char
  deriving DecidableEq

namespace Address

def isAsciiLetter (c : Char) : Bool := ('a' ≤ c && c ≤ 'z') || ('A' ≤ c && c ≤ 'Z')

def isSchemeChar (c : Char) : Bool :=
  isAsciiLetter c || Text.isAsciiDigit c || c == '+' || c == '-' || c == '.'

/-- The text without leading controls and blanks, and without tabs and line ends. -/
def cleaned (s : List Char) : List Char :=
  (s.dropWhile fun c => c.toNat ≤ 0x20).filter fun c => c != '\t' && c != '\r' && c != '\n'

/-- Cut off the scheme in front of the first colon, in lower case. -/
def splitScheme (s : List Char) : List Char × List Char :=
  match Text.cutAt ':' s with
  | (scheme, some rest) =>
    if scheme.head?.any isAsciiLetter && scheme.all isSchemeChar then
      (scheme.map Char.toLower, rest)
    else ([], s)
  | (_, none) => ([], s)

/-- Cut off the host behind a double slash. -/
def splitHost : List Char → List Char × List Char
  | '/' :: '/' :: rest =>
    let inHost (c : Char) : Bool := c != '/' && c != '?' && c != '#'
    (rest.takeWhile inHost, rest.dropWhile inHost)
  | s => ([], s)

/-- The schemes whose last path segment may carry parameters. -/
def schemesWithParameters : List String := [
  "", "ftp", "hdl", "prospero", "http", "imap", "https", "shttp", "rtsp", "rtspu", "sip",
  "sips", "mms", "sftp", "tel"]

/-- The schemes that are followed by a host. -/
def schemesWithHost : List String := [
  "ftp", "http", "gopher", "nntp", "telnet", "imap", "wais", "file", "mms", "https",
  "shttp", "snews", "prospero", "rtsp", "rtspu", "rsync", "svn", "svn+ssh", "sftp", "nfs",
  "git", "git+ssh", "ws", "wss"]

/-- Cut off the parameters of the last segment of a path. -/
def splitParameters (path : List Char) : List Char × List Char :=
  let segment := (path.reverse.takeWhile (· ≠ '/')).reverse
  let folder := path.take (path.length - segment.length)
  match Text.cutAt ';' segment with
  | (before, some parameters) => (folder ++ before, parameters)
  | (_, none) => (path, [])

/-- The parts of an address. -/
def ofText (text : String) : Attempt Address := do
  let (scheme, rest) := splitScheme (cleaned text.toList)
  let (host, rest) := splitHost rest
  checkHost host
  let (rest, fragment) := Text.cutAt '#' rest
  let (path, query) := Text.cutAt '?' rest
  let (path, parameters) :=
    if schemesWithParameters.contains (String.ofList scheme) then splitParameters path
    else (path, [])
  return ⟨scheme, host, path, parameters, query.getD [], fragment.getD []⟩

/-- The text of an address without its fragment; empty parts leave no trace. -/
def textWithoutFragment (a : Address) : List Char :=
  let path := if a.parameters.isEmpty then a.path else a.path ++ ';' :: a.parameters
  let rooted :=
    if !a.host.isEmpty || schemesWithHost.contains (String.ofList a.scheme) ||
        path.take 2 == ['/', '/'] then
      ['/', '/'] ++ a.host ++
        (if path.isEmpty || path.head? == some '/' then path else '/' :: path)
    else path
  (if a.scheme.isEmpty then rooted else a.scheme ++ ':' :: rooted) ++
    (if a.query.isEmpty then [] else '?' :: a.query)

/-- The document and the fragment of a reference. -/
def withoutFragment (reference : String) : Attempt (String × String) :=
  if reference.toList.contains '#' then do
    let a ← ofText reference
    return (String.ofList a.textWithoutFragment, String.ofList a.fragment)
  else .ok (reference, "")

/-- The address of a document on the web. -/
def isWeb (text : String) : Attempt Bool := do
  let a ← ofText text
  return a.scheme == "http".toList || a.scheme == "https".toList

/-- The ending of the path, in lower case and with its dot. -/
def extension (text : String) : Attempt String := do
  let a ← ofText text
  if a.path.contains '.' then
    let ending := (a.path.reverse.takeWhile (· ≠ '.')).reverse
    return "." ++ Text.lower (String.ofList ending)
  else return ""

end Address

end ClientForge
