import TapeMachine.Text.Utf8

/-!
# Characters of a YAML file

A file is encoded in UTF-8, unless it begins with the mark of UTF-16.  A mark at the front is left out.  Control
characters must not stand in a file.

Files are read in blocks, and a block is read only when one of its characters is asked for.  So a malformed
character counts from the beginning of its block on, and does not count at all if the reader never gets
there.  A character that the end of the file cuts short counts from its own place on.
-/

set_option autoImplicit false
namespace TapeMachine.Yaml

/-- The characters of a file that can be read, and whether it breaks off behind them. -/
structure Input where
  chars : List Char
  broken : Bool
  deriving Repr

namespace Input

/-- The size of a block. -/
def blockSize : Nat :=
  512

/-- Whether a character may stand in a file. -/
def isAllowed (c : Char) : Bool :=
  let n := c.toNat
  n = 9 || n = 10 || n = 13 || n = 0x85 || (0x20 ≤ n && n ≤ 0x7e) || (0xa0 ≤ n && n ≤ 0xfffd) ||
    0x10000 ≤ n

/-- How characters are encoded. -/
inductive Encoding where
  | utf8
  | utf16 (bigEndian : Bool)
  deriving DecidableEq, Repr

/-- What stands at the front of some bytes. -/
inductive Front where
  | character (c : Char) (rest : List UInt8)
  | cutShort
  | malformed

/-- How many bytes the character has that begins with a byte. -/
def utf8Width? (b : UInt8) : Option Nat :=
  if b < 0x80 then some 1
  else if b < 0xc0 then none
  else if b < 0xe0 then some 2
  else if b < 0xf0 then some 3
  else if b < 0xf8 then some 4
  else none

/-- The UTF-8 character at the front of some bytes. -/
def utf8Front (bytes : List UInt8) : Front :=
  match bytes.head?.bind utf8Width? with
  | none => .malformed
  | some width =>
    if bytes.length < width then .cutShort
    else
      match Text.decodeChar? bytes with
      | some (c, rest) => .character c rest
      | none => .malformed

/-- The number of a unit of UTF-16. -/
def unit (bigEndian : Bool) (a b : UInt8) : Nat :=
  if bigEndian then a.toNat * 256 + b.toNat else b.toNat * 256 + a.toNat

/-- The UTF-16 character at the front of some bytes. -/
def utf16Front (bigEndian : Bool) : List UInt8 → Front
  | a :: b :: rest =>
    let high := unit bigEndian a b
    if high < 0xd800 ∨ 0xe000 ≤ high then .character (Char.ofNat high) rest
    else if 0xdc00 ≤ high then .malformed
    else
      match rest with
      | a :: b :: rest =>
        let low := unit bigEndian a b
        if 0xdc00 ≤ low ∧ low < 0xe000 then
          .character (Char.ofNat (0x10000 + (high - 0xd800) * 1024 + (low - 0xdc00))) rest
        else .malformed
      | _ => .cutShort
  | _ => .cutShort

/-- The character at the front of some bytes. -/
def Encoding.front : Encoding → List UInt8 → Front
  | utf8, bytes => utf8Front bytes
  | utf16 bigEndian, bytes => utf16Front bigEndian bytes

/-- The characters of a block, before those of the blocks before, last one first, and the bytes that are left over
of a character.  There are none if a character is malformed. -/
def readBlock? (encoding : Encoding) : Nat → List Char → List UInt8 → Option (List Char × List UInt8)
  | 0, before, bytes => some (before, bytes)
  | _, before, [] => some (before, [])
  | n + 1, before, bytes =>
    match encoding.front bytes with
    | .character c rest => if isAllowed c then readBlock? encoding n (c :: before) rest else none
    | .cutShort => some (before, bytes)
    | .malformed => none

/-- Reads blocks, the first one of some size, after the characters before, last one first. -/
def readBlocksFor (encoding : Encoding) : Nat → (size : Nat) → List Char → List UInt8 → Input
  | 0, _, before, _ => ⟨before.reverse, true⟩
  | n + 1, size, before, bytes =>
    match readBlock? encoding size before (bytes.take size) with
    | none => ⟨before.reverse, true⟩
    | some (chars, left) =>
      match bytes.drop size with
      | [] => ⟨chars.reverse, !left.isEmpty⟩
      | rest => readBlocksFor encoding n blockSize chars (left ++ rest)

/-- The encoding that a mark at the front tells, and the bytes after it. -/
def detect : List UInt8 → Encoding × List UInt8
  | 0xef :: 0xbb :: 0xbf :: rest => (.utf8, rest)
  | 0xff :: 0xfe :: rest => (.utf16 false, rest)
  | 0xfe :: 0xff :: rest => (.utf16 true, rest)
  | bytes => (.utf8, bytes)

/-- Reads a file. -/
def ofFile (file : List UInt8) : Input :=
  let (encoding, bytes) := detect file
  readBlocksFor encoding (file.length + 1) (blockSize - (file.length - bytes.length)) [] bytes

end Input

end TapeMachine.Yaml
