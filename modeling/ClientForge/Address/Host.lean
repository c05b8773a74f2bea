/-
# ClientForge.Address.Host -- the hosts that an address may have

A host may be any text, but brackets in it have to surround a numeric address: one of version
six, or one of a later version, which begins with the letter `v`.  In front of the brackets
only a user may stand, behind them only what a colon begins.

A numeric address of version six has eight groups of sixteen bits.  Two colons next to each
other stand for the groups that are left out, at least one; the last two groups may be written
as an address of version four; and a zone may follow behind a percent sign.

A host may not hide a delimiter either: there are characters that become one in their
compatibility form.
-/
import ClientForge.Failure

namespace ClientForge.Address

set_option autoImplicit false

/-- A part of an address of version four: a number below 256 without zeros in front. -/
def isOctet (s : List Char) : Bool :=
  !s.isEmpty && s.length ≤ 3 && s.all Text.isAsciiDigit && (s == ['0'] || s.head? != some '0') &&
    Text.digitsValue s < 256

/-- A numeric address of version four. -/
def isVersionFour (s : List Char) : Bool :=
  let octets := Text.splitOn '.' s
  octets.length == 4 && octets.all isOctet

def isHexDigit (c : Char) : Bool := (Text.hexValue? c).isSome

/-- Sixteen bits in base sixteen. -/
def isGroup (s : List Char) : Bool := !s.isEmpty && s.length ≤ 4 && s.all isHexDigit

/-- The number of groups; `atEnd` says that the last two may be one part of version four. -/
def countGroups (atEnd : Bool) : List (List Char) → Option Nat
  | [] => some 0
  | [part] =>
    if isGroup part then some 1 else if atEnd && isVersionFour part then some 2 else none
  | part :: rest => if isGroup part then (countGroups atEnd rest).map (· + 1) else none

/-- The number of groups that a text writes, with a colon between two of them. -/
def groupCount? (atEnd : Bool) (s : List Char) : Option Nat :=
  if s.isEmpty then some 0 else countGroups atEnd (Text.splitOn ':' s)

/-- Cut at the first two colons next to each other. -/
def cutAtGap : List Char → Option (List Char × List Char)
  | [] => none
  | c :: rest =>
    match c, rest with
    | ':', ':' :: after => some ([], after)
    | _, _ => (cutAtGap rest).map fun (before, after) => (c :: before, after)

/-- A zone has a name without a percent sign. -/
def isZone (s : List Char) : Bool := !s.isEmpty && !s.contains '%'

/-- A numeric address of version six. -/
def isVersionSix (s : List Char) : Bool :=
  let (groups, zone) := Text.cutAt '%' s
  zone.all isZone &&
    match cutAtGap groups with
    | none => groupCount? true groups == some 8
    | some (before, after) =>
      match groupCount? false before, groupCount? true after with
      | some m, some n => m + n < 8
      | _, _ => false

/-- A numeric address of a later version: the letter, the version, a point and more. -/
def isFutureVersion (s : List Char) : Bool :=
  match Text.cutAt '.' s with
  | ('v' :: version, some (_ :: _)) => !version.isEmpty && version.all isHexDigit
  | _ => false

/-- What brackets surround has to be a numeric address. -/
def checkNumeric (s : List Char) : Attempt Unit :=
  if s.head? = some 'v' then
    if isFutureVersion s then .ok () else .error (.badAddress .futureVersion)
  else if isVersionFour s then .error (.badAddress .versionFour)
  else if isVersionSix s then .ok ()
  else .error (.badAddress (.notNumeric (String.ofList s)))

/-- A host without the user in front of it. -/
def withoutUser (host : List Char) : List Char := (host.reverse.takeWhile (· ≠ '@')).reverse

/-- Check a host with both brackets in it. -/
def checkBrackets (host : List Char) : Attempt Unit :=
  let place := withoutUser host
  match Text.cutAt '[' place with
  | (before, some rest) =>
    let (numeric, behind) := Text.cutAt ']' rest
    if !before.isEmpty || (behind.getD []).head?.any (· ≠ ':') then .error (.badAddress .brackets)
    else checkNumeric numeric
  | (_, none) => checkNumeric (Text.cutAt ':' place).1

/-- The characters with a delimiter in their compatibility form. -/
def hiddenDelimiters : List Nat := [
  0x2047, 0x2048, 0x2049, 0x2100, 0x2101, 0x2105, 0x2106, 0x2a74, 0xfe13, 0xfe16, 0xfe55,
  0xfe56, 0xfe5f, 0xfe6b, 0xff03, 0xff0f, 0xff1a, 0xff1f, 0xff20]

def hidesDelimiter (c : Char) : Bool := hiddenDelimiters.contains c.toNat

/-- Check the host of an address. -/
def checkHost (host : List Char) : Attempt Unit := do
  if host.contains '[' != host.contains ']' then .error (.badAddress .brackets)
  else if host.contains '[' then checkBrackets host
  if host.any hidesDelimiter then
    .error (.badAddress (.hiddenDelimiter (String.ofList host)))

end ClientForge.Address
