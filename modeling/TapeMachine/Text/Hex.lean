/-!
# Hexadecimal numbers

Two spellings occur: lower-case digits in the name of a byte that is no operator, and upper-case
digits, padded with zeros to a fixed width, in a memory dump.
-/

set_option autoImplicit false
namespace TapeMachine.Text

/-- The lower-case hexadecimal digit of a number below sixteen. -/
def hexDigit (n : Nat) : Char :=
  if n < 10 then Char.ofNat (48 + n) else Char.ofNat (87 + n)

/-- The upper-case hexadecimal digit of a number below sixteen. -/
def upperHexDigit (n : Nat) : Char :=
  if n < 10 then Char.ofNat (48 + n) else Char.ofNat (55 + n)

/-- A byte as two lower-case digits. -/
def hexByte (b : UInt8) : List Char :=
  [hexDigit (b.toNat / 16), hexDigit (b.toNat % 16)]

/-- A byte as two upper-case digits. -/
def upperHexByte (b : UInt8) : List Char :=
  [upperHexDigit (b.toNat / 16), upperHexDigit (b.toNat % 16)]

/-- The upper-case hexadecimal digits of a natural number, most significant first. -/
def upperHexDigits (n : Nat) : List Char :=
  (Nat.toDigits 16 n).map Char.toUpper

/-- An integer in upper-case hexadecimal, filled up with zeros to `width` characters.  A minus sign
stands before the zeros and counts as a character. -/
def paddedHex (width : Nat) (n : Int) : List Char :=
  let digits := upperHexDigits n.natAbs
  if n < 0 then '-' :: (List.replicate (width - 1 - digits.length) '0' ++ digits)
  else List.replicate (width - digits.length) '0' ++ digits

end TapeMachine.Text
