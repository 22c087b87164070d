import TapeMachine.Text.Hex
import TapeMachine.Text.Printable
import TapeMachine.Text.Utf8

/-!
# Quoted texts

A text that could not be read is shown in double quotes.  Printable characters stand for themselves;
quotes and backslashes take a backslash, and everything else is escaped: the usual control characters by
a letter, other ASCII ones as `\x` with two digits, and the rest as `\u` with four or `\U` with eight.

Byte strings are quoted in the same way, and a byte that is part of no character is written as `\x` with two
digits.
-/

set_option autoImplicit false
namespace TapeMachine.Text

/-- The last `width` lower-case hexadecimal digits of a number. -/
def fixedHex : (width n : Nat) → List Char
  | 0, _ => []
  | width + 1, n => fixedHex width (n / 16) ++ [hexDigit (n % 16)]

/-- The letter that stands for a control character after a backslash. -/
def controlLetter? (c : Char) : Option Char :=
  match c.toNat with
  | 7 => some 'a'
  | 8 => some 'b'
  | 9 => some 't'
  | 10 => some 'n'
  | 11 => some 'v'
  | 12 => some 'f'
  | 13 => some 'r'
  | _ => none

/-- How a character is written between quotes. -/
def quotedChar (c : Char) : List Char :=
  if c = '"' ∨ c = '\\' then ['\\', c]
  else if isPrintable c then [c]
  else
    match controlLetter? c with
    | some letter => ['\\', letter]
    | none =>
      if c.toNat < 0x80 then '\\' :: 'x' :: fixedHex 2 c.toNat
      else if c.toNat < 0x10000 then '\\' :: 'u' :: fixedHex 4 c.toNat
      else '\\' :: 'U' :: fixedHex 8 c.toNat

/-- A text in double quotes. -/
def quoted (s : String) : String :=
  String.ofList ('"' :: s.toList.flatMap quotedChar ++ ['"'])

/-- How a byte string is written between quotes, for at most a number of characters. -/
def quotedBytesFor : Nat → List UInt8 → List Char
  | 0, _ => []
  | _, [] => []
  | n + 1, b :: bs =>
    match decodeChar? (b :: bs) with
    | some (c, rest) => quotedChar c ++ quotedBytesFor n rest
    | none => '\\' :: 'x' :: fixedHex 2 b.toNat ++ quotedBytesFor n bs

/-- A byte string in double quotes. -/
def quotedBytes (bs : List UInt8) : String :=
  String.ofList ('"' :: quotedBytesFor bs.length bs ++ ['"'])

end TapeMachine.Text
