/-
# ClientForge.Text.Utf8 -- reading the bytes of a text file

A file is read as UTF-8, and every line end becomes a line feed.  The first byte that cannot
belong to a text is a fault, of which there are three kinds; a fault also names the bytes it
covers.  Overlong forms, surrogates and code points beyond the last one are refused at their
second byte.
-/
import ClientForge.Text.Pieces

namespace ClientForge.Text

set_option autoImplicit false

/-- Why a sequence of bytes is no text. -/
inductive Utf8Fault where
  | badStart (byte position : Nat)
  | badContinuation (byte position count : Nat)
  | truncated (byte position count : Nat)
  deriving DecidableEq

/-- The bytes that a message points at. -/
def faultPlace (byte position count : Nat) : String :=
  if count = 1 then
    "byte 0x" ++ String.ofList (hex 2 byte) ++ " in position " ++ toString position
  else "bytes in position " ++ toString position ++ "-" ++ toString (position + count - 1)

/-- The message of a fault. -/
def Utf8Fault.message : Utf8Fault → String
  | .badStart byte position =>
    "'utf-8' codec can't decode " ++ faultPlace byte position 1 ++ ": invalid start byte"
  | .badContinuation byte position count =>
    "'utf-8' codec can't decode " ++ faultPlace byte position count ++
      ": invalid continuation byte"
  | .truncated byte position count =>
    "'utf-8' codec can't decode " ++ faultPlace byte position count ++
      ": unexpected end of data"

/-- How many bytes follow a first byte, and between which bounds the next one lies. -/
def followers? (byte : Nat) : Option (Nat × Nat × Nat) :=
  if byte < 0x80 then some (0, 0x80, 0xbf)
  else if byte < 0xc2 then none
  else if byte < 0xe0 then some (1, 0x80, 0xbf)
  else if byte = 0xe0 then some (2, 0xa0, 0xbf)
  else if byte = 0xed then some (2, 0x80, 0x9f)
  else if byte < 0xf0 then some (2, 0x80, 0xbf)
  else if byte = 0xf0 then some (3, 0x90, 0xbf)
  else if byte < 0xf4 then some (3, 0x80, 0xbf)
  else if byte = 0xf4 then some (3, 0x80, 0x8f)
  else none

/-- The payload of a first byte with the given number of followers. -/
def leadBits (byte count : Nat) : Nat :=
  match count with
  | 0 => byte
  | 1 => byte % 0x20
  | 2 => byte % 0x10
  | _ => byte % 0x08

/-- Where a reader of bytes stands: between characters, or inside one. -/
inductive Utf8State where
  | between
  | inside (first start code owed low high : Nat)

/-- Read bytes from a position on, collecting the characters in reverse. -/
def decodeFrom : Utf8State → Nat → List Char → List UInt8 → Except Utf8Fault (List Char)
  | .between, _, done, [] => .ok done.reverse
  | .inside first start _ _ _ _, position, _, [] =>
    .error (.truncated first start (position - start))
  | .between, position, done, b :: rest =>
    match followers? b.toNat with
    | none => .error (.badStart b.toNat position)
    | some (0, _, _) => decodeFrom .between (position + 1) (Char.ofNat b.toNat :: done) rest
    | some (count, low, high) =>
      decodeFrom (.inside b.toNat position (leadBits b.toNat count) count low high)
        (position + 1) done rest
  | .inside first start code owed low high, position, done, b :: rest =>
    if b.toNat < low ∨ high < b.toNat then
      .error (.badContinuation first start (position - start))
    else
      let code := code * 0x40 + b.toNat % 0x40
      if owed ≤ 1 then decodeFrom .between (position + 1) (Char.ofNat code :: done) rest
      else decodeFrom (.inside first start code (owed - 1) 0x80 0xbf) (position + 1) done rest

/-- Every line end as a line feed. -/
def unifyLines : List Char → List Char
  | [] => []
  | '\r' :: '\n' :: rest => '\n' :: unifyLines rest
  | '\r' :: rest => '\n' :: unifyLines rest
  | c :: rest => c :: unifyLines rest

/-- The text of a file. -/
def decodeUtf8 (bytes : List UInt8) : Except Utf8Fault String :=
  (decodeFrom .between 0 [] bytes).map fun cs => String.ofList (unifyLines cs)

end ClientForge.Text
