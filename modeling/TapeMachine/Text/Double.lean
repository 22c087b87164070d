import TapeMachine.Text.Decimal

/-!
# Double-precision numbers in text

A finite double-precision number is an integer of at most 53 bits times a power of two, so all questions about
its digits are questions about integers, and are answered exactly.

Three ways to write such a number are needed: with the fewest digits that still tell it from all others, with a
number of significant digits, and with a number of places after the point.  Where digits are cut off they are
rounded, and a half goes to the even neighbour.
-/

set_option autoImplicit false
namespace TapeMachine.Text

/-- The number `mantissa * 2 ^ exponent`. -/
structure Dyadic where
  mantissa : Nat
  exponent : Int
  deriving DecidableEq, Repr

namespace Dyadic

/-- The least mantissa with all 53 bits, `2 ^ 52`. -/
def fullMantissa : Nat :=
  4503599627370496

/-- The size of a finite double-precision number. -/
def ofFloat (x : Float) : Dyadic :=
  let bits := x.toBits.toNat
  let fraction := bits % fullMantissa
  let scale := bits / fullMantissa % 2048
  if scale = 0 then ⟨fraction, -1074⟩ else ⟨fraction + fullMantissa, scale - 1075⟩

/-- A number as a quotient. -/
def quotient (d : Dyadic) : Nat × Nat :=
  (d.mantissa * Nat.pow 2 d.exponent.toNat, Nat.pow 2 (-d.exponent).toNat)

/-- The integer part. -/
def integerPart (d : Dyadic) : Nat :=
  d.quotient.1 / d.quotient.2

end Dyadic

/-- Decimal digits: the number `digits * 10 ^ exponent`. -/
structure Digits where
  digits : Nat
  exponent : Int
  deriving DecidableEq, Repr

namespace Digits

/-- The digits, as text. -/
def text (d : Digits) : List Char :=
  Nat.toDigits 10 d.digits

/-- The place of the first digit: the exponent it has by itself. -/
def leading (d : Digits) : Int :=
  d.exponent + d.text.length - 1

/-- Leaves out zeros at the end. -/
def trimmed (d : Digits) : Digits :=
  let zeros := (d.text.reverse.takeWhile (· = '0')).length
  if d.digits = 0 then ⟨0, 0⟩ else ⟨d.digits / Nat.pow 10 zeros, d.exponent + zeros⟩

end Digits

/-- The greatest exponent of ten that is not above a positive quotient. -/
def leadingPlace (num den : Nat) : Int :=
  let guess : Int := (Nat.toDigits 10 num).length - (Nat.toDigits 10 den).length
  if den * Nat.pow 10 guess.toNat ≤ num * Nat.pow 10 (-guess).toNat then guess else guess - 1

/-- A quotient in units of `10 ^ place`, as a quotient. -/
def inUnits (num den : Nat) (place : Int) : Nat × Nat :=
  (num * Nat.pow 10 (-place).toNat, den * Nat.pow 10 place.toNat)

namespace Dyadic

/-- A number rounded to some significant digits. -/
def significant (count : Nat) (d : Dyadic) : Digits :=
  let (num, den) := d.quotient
  if num = 0 then ⟨0, 0⟩
  else
    let place := leadingPlace num den - count + 1
    let (num, den) := inUnits num den place
    let digits := roundDiv num den
    if digits < Nat.pow 10 count then ⟨digits, place⟩ else ⟨digits / 10, place + 1⟩

/-- A number rounded to some places after the point. -/
def places (count : Nat) (d : Dyadic) : Digits :=
  let (num, den) := d.quotient
  ⟨roundDiv (num * Nat.pow 10 count) den, -count⟩

/-- Whether decimal digits are nearer to a number than to its neighbours: the distance to a neighbour is one
unit of the last bit, or half of it downward from a power of two.  Half-way digits belong to the even
mantissa. -/
def owns (d : Dyadic) (c : Digits) : Bool :=
  -- all in quarters of the last bit
  let scale := d.exponent - 2
  let value := c.digits * Nat.pow 10 c.exponent.toNat * Nat.pow 2 (-scale).toNat
  let unit := Nat.pow 10 (-c.exponent).toNat * Nat.pow 2 scale.toNat
  let below := if d.mantissa = fullMantissa ∧ -1074 < d.exponent then 1 else 2
  let low := (4 * d.mantissa - below) * unit
  let high := (4 * d.mantissa + 2) * unit
  if d.mantissa % 2 = 0 then low ≤ value && value ≤ high else low < value && value < high

/-- The best digits of a given number that a number owns, if it owns any. -/
def ownDigits? (d : Dyadic) (count : Nat) : Option Digits :=
  let (num, den) := d.quotient
  let place := leadingPlace num den - count + 1
  let (num, den) := inUnits num den place
  let below : Digits := ⟨num / den, place⟩
  let above : Digits := ⟨num / den + 1, place⟩
  let nearer := if roundDiv num den = num / den then below else above
  let farther := if roundDiv num den = num / den then above else below
  if d.owns nearer then some nearer else if d.owns farther then some farther else none

/-- The fewest digits that a number owns.  Seventeen are always enough. -/
def shortest (d : Dyadic) : Digits :=
  if d.mantissa = 0 then ⟨0, 0⟩
  else
    let found := (List.range 17).findSome? fun i => d.ownDigits? (i + 1)
    (found.getD (d.significant 17)).trimmed

end Dyadic

namespace Digits

/-- One digit, a point, the other digits, of which there are at least `least`, and an exponent of at least two
digits with its sign. -/
def scientific (mark : Char) (least : Nat) (d : Digits) : List Char :=
  let exponent := d.leading
  let digits := Nat.toDigits 10 exponent.natAbs
  let fraction := (d.text.drop 1).rightpad least '0'
  d.text.take 1 ++ (if fraction.isEmpty then [] else '.' :: fraction) ++
    [mark, if exponent < 0 then '-' else '+'] ++
    (if digits.length < 2 then '0' :: digits else digits)

/-- All digits at their places around the point, which is left out if nothing follows it. -/
def positional (d : Digits) : List Char :=
  if 0 ≤ d.exponent then d.text ++ List.replicate d.exponent.toNat '0'
  else
    let places := (-d.exponent).toNat
    let all := List.replicate (places + 1 - d.text.length) '0' ++ d.text
    all.take (all.length - places) ++ '.' :: all.drop (all.length - places)

end Digits

end TapeMachine.Text
