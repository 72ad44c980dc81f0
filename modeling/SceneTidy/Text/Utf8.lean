import SceneTidy.Text.Shown

/-!
# Texts as bytes

A file holds bytes, which stand for a text in UTF-8.  A character takes one byte or up to four.  The
first byte tells how many, and bounds the second, so that each character has one form only, and the
halves of sixteen-bit pairs have none.  Bytes that stand for no text are refused at the first
character that is broken.
-/

namespace SceneTidy.Text

/-- The bytes of a text. -/
def bytesOf (text : String) : List UInt8 := text.toUTF8.data.toList

/-- What is wrong with a broken character: no character starts with its byte, it does not go on with
the byte behind it, or the bytes end before it does. -/
inductive Break
  | start
  | next
  | cutOff
  deriving DecidableEq, Repr

/-- A broken character: its place, its bytes, and what is wrong with it. -/
structure BrokenChar where
  place : Nat
  bytes : List UInt8
  cause : Break
  deriving DecidableEq, Repr

/-- The wording of what is wrong with a broken character. -/
def Break.message : Break → String
  | start => "invalid start byte"
  | next => "invalid continuation byte"
  | cutOff => "unexpected end of data"

/-- The wording of a broken character, which shows a single byte itself. -/
def BrokenChar.message (c : BrokenChar) : String :=
  let found :=
    match c.bytes with
    | [b] => s!"byte 0x{String.ofList (hexPadded 2 b.toNat)} in position {c.place}"
    | bytes => s!"bytes in position {c.place}-{c.place + bytes.length - 1}"
  s!"'utf-8' codec can't decode {found}: {c.cause.message}"

/-- A character under way: its bytes so far, the number that they come to, how many bytes are
missing, and the bounds of the next one. -/
structure Begun where
  bytes : List UInt8
  value : Nat
  missing : Nat
  low : Nat
  high : Nat

namespace Begun

/-- The character of several bytes that a byte starts. -/
def ofByte? (b : UInt8) : Option Begun :=
  let n := b.toNat
  if n < 0xC2 then none
  else if n < 0xE0 then some ⟨[b], n % 32, 1, 0x80, 0xBF⟩
  else if n < 0xF0 then
    some ⟨[b], n % 16, 2, if n = 0xE0 then 0xA0 else 0x80, if n = 0xED then 0x9F else 0xBF⟩
  else if n < 0xF5 then
    some ⟨[b], n % 8, 3, if n = 0xF0 then 0x90 else 0x80, if n = 0xF4 then 0x8F else 0xBF⟩
  else none

/-- Whether the character may go on with a byte. -/
def takes (c : Begun) (b : UInt8) : Bool := c.low ≤ b.toNat && b.toNat ≤ c.high

/-- The character with one byte more. -/
def goOn (c : Begun) (b : UInt8) : Begun :=
  ⟨c.bytes ++ [b], 64 * c.value + b.toNat % 64, c.missing - 1, 0x80, 0xBF⟩

end Begun

/-- The characters that bytes stand for; the first one starts at a place, and may be under way. -/
def decodeFrom (place : Nat) : Option Begun → List UInt8 → Except BrokenChar (List Char)
  | none, [] => .ok []
  | some c, [] => .error ⟨place, c.bytes, .cutOff⟩
  | none, b :: r =>
    if b.toNat < 0x80 then (decodeFrom (place + 1) none r).map (Char.ofNat b.toNat :: ·)
    else
      match Begun.ofByte? b with
      | none => .error ⟨place, [b], .start⟩
      | some c => decodeFrom place (some c) r
  | some c, b :: r =>
    if !c.takes b then .error ⟨place, c.bytes, .next⟩
    else
      let c := c.goOn b
      if c.missing = 0 then
        (decodeFrom (place + c.bytes.length) none r).map (Char.ofNat c.value :: ·)
      else decodeFrom place (some c) r

/-- The text that bytes stand for. -/
def decode (bytes : List UInt8) : Except BrokenChar String :=
  (decodeFrom 0 none bytes).map String.ofList

end SceneTidy.Text
