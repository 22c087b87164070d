import TapeMachine.Text.Number

/-!
# Decimal numbers

A decimal number with a fraction or an exponent stands for the double-precision number nearest to it.  So
`0.99999999999999999999` is one, and a number that is too large is none at all.
-/

set_option autoImplicit false
namespace TapeMachine.Text

/-- Rounds a quotient to the nearest integer, and a half to the even one. -/
def roundDiv (num den : Nat) : Nat :=
  let q := num / den
  let r := num % den
  if 2 * r < den ∨ (2 * r = den ∧ q % 2 = 0) then q else q + 1

/-- The number `mantissa * 10 ^ exponent`, with a sign. -/
structure Decimal where
  negative : Bool
  mantissa : Nat
  exponent : Int
  deriving DecidableEq, Repr

namespace Decimal

/-- How many digits stand before the point; less than none if zeros follow the point. -/
def digitsBeforePoint (d : Decimal) : Int :=
  (Nat.toDigits 10 d.mantissa).length + d.exponent

/-- The size of the nearest double-precision number, which is infinite if the number is too large. -/
def nearestSize (d : Decimal) : Float :=
  if d.mantissa = 0 ∨ d.digitsBeforePoint < -330 then 0
  else if 310 < d.digitsBeforePoint then 1 / 0
  else Float.ofScientific d.mantissa (d.exponent < 0) d.exponent.natAbs

/-- The nearest double-precision number.  There is none if the number is too large. -/
def nearest? (d : Decimal) : Option Float :=
  let size := d.nearestSize
  if size.isInf then none else some (if d.negative then -size else size)

end Decimal

/-- Reads a sign, if there is one. -/
def splitSign : List Char → Bool × List Char
  | '-' :: cs => (true, cs)
  | '+' :: cs => (false, cs)
  | cs => (false, cs)

/-- Reads an exponent, with its mark. -/
def exponent? : List Char → Option Int
  | [] => some 0
  | c :: cs =>
    let (negative, ds) := splitSign cs
    if (c = 'e' ∨ c = 'E') ∧ !ds.isEmpty ∧ ds.all Char.isDigit then
      some (if negative then -(numberIn 10 ds : Int) else numberIn 10 ds)
    else none

/-- Reads a decimal number.  Digits may be missing after its point, or before it, but not both. -/
def decimal? (cs : List Char) : Option Decimal :=
  let (negative, cs) := splitSign cs
  let whole := cs.takeWhile Char.isDigit
  let cs := cs.dropWhile Char.isDigit
  let (fraction, cs) :=
    match cs with
    | '.' :: cs => (cs.takeWhile Char.isDigit, cs.dropWhile Char.isDigit)
    | cs => ([], cs)
  if whole.isEmpty ∧ fraction.isEmpty then none
  else
    (exponent? cs).map fun e => ⟨negative, numberIn 10 (whole ++ fraction), e - fraction.length⟩

end TapeMachine.Text
