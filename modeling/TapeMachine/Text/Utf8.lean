/-!
# UTF-8

Program text is bytes, and is shown as characters only in log records and in scripts.  `decodeChar?` reads
the character at the front of a byte string; it refuses overlong forms, surrogates and numbers beyond
the last code point, as the encoding demands.
-/

set_option autoImplicit false
namespace TapeMachine.Text

/-- The six payload bits of a continuation byte. -/
def continuation? (b : UInt8) : Option Nat :=
  if 0x80 ≤ b ∧ b < 0xc0 then some (b.toNat - 0x80) else none

/-- A character from its number, if the number lies above the given bound and is one of a character. -/
def charFrom? (least n : Nat) : Option Char :=
  if least ≤ n ∧ n.isValidChar then some (Char.ofNat n) else none

/-- Reads the character at the front of a byte string, and gives the rest. -/
def decodeChar? : List UInt8 → Option (Char × List UInt8)
  | [] => none
  | a :: rest =>
    if a < 0x80 then some (Char.ofNat a.toNat, rest)
    else if a < 0xc0 then none
    else if a < 0xe0 then
      match rest with
      | b :: rest => do
        let b ← continuation? b
        let c ← charFrom? 0x80 ((a.toNat - 0xc0) * 64 + b)
        return (c, rest)
      | _ => none
    else if a < 0xf0 then
      match rest with
      | b :: c :: rest => do
        let b ← continuation? b
        let c ← continuation? c
        let c ← charFrom? 0x800 ((a.toNat - 0xe0) * 4096 + b * 64 + c)
        return (c, rest)
      | _ => none
    else if a < 0xf8 then
      match rest with
      | b :: c :: d :: rest => do
        let b ← continuation? b
        let c ← continuation? c
        let d ← continuation? d
        let c ← charFrom? 0x10000 ((a.toNat - 0xf0) * 262144 + b * 4096 + c * 64 + d)
        return (c, rest)
      | _ => none
    else none

/-- Decodes byte strings up to the given length. -/
def decodeFor : Nat → List UInt8 → List (Option Char)
  | 0, _ => []
  | _, [] => []
  | n + 1, b :: bs =>
    match decodeChar? (b :: bs) with
    | some (c, rest) => some c :: decodeFor n rest
    | none => none :: decodeFor n bs

/-- The characters of a byte string.  A byte at which no character can be read stands for itself, as
`none`. -/
def decode (bs : List UInt8) : List (Option Char) :=
  decodeFor bs.length bs

/-- The bytes of a text. -/
def encode (s : String) : List UInt8 :=
  s.toUTF8.data.toList

/-- The text of a byte string, if all of it can be read. -/
def decode? (bs : List UInt8) : Option (List Char) :=
  (decode bs).mapM id

end TapeMachine.Text
