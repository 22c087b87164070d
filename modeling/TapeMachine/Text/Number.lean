/-!
# Reading numbers and truth values

Numbers are signed 64-bit words.  They are read in decimal (`decimalInt`), or as literals that may name
another base and set their digits apart by underscores (`literalInt`).  A text that is no number is told from
a number that is too large; digits are looked at from left to right, and the first thing that is wrong
decides which of the two is reported.
-/

set_option autoImplicit false
namespace TapeMachine

/-- Why a text was not read as a number or a truth value. -/
inductive ScalarFault where
  | malformed
  | outOfRange
  deriving DecidableEq, Repr

def ScalarFault.message : ScalarFault → String
  | malformed => "invalid syntax"
  | outOfRange => "value out of range"

namespace Text

/-- The value of a digit, in bases up to 36. -/
def digitValue? (c : Char) : Option Nat :=
  if c.isDigit then some (c.toNat - '0'.toNat)
  else if 'a' ≤ c ∧ c ≤ 'z' then some (c.toNat - 'a'.toNat + 10)
  else if 'A' ≤ c ∧ c ≤ 'Z' then some (c.toNat - 'A'.toNat + 10)
  else none

/-- Whether a character is a digit in a base. -/
def isDigitIn (base : Nat) (c : Char) : Bool :=
  (digitValue? c).any (· < base)

/-- The number that digits in a base make up. -/
def numberIn (base : Nat) (digits : List Char) : Nat :=
  digits.foldl (fun n c => n * base + (digitValue? c).getD 0) 0

/-- The number whose digits in a base follow those of `n`, below `2 ^ 64`. -/
def magnitudeFrom (base : Nat) : Nat → List Char → Except ScalarFault Nat
  | n, [] => .ok n
  | n, c :: cs =>
    match digitValue? c with
    | none => .error .malformed
    | some d =>
      if base ≤ d then .error .malformed
      else if 18446744073709551616 ≤ n * base + d then .error .outOfRange
      else magnitudeFrom base (n * base + d) cs

/-- Reads a number with an optional sign as a word, given how to read it without one. -/
def signedInt (unsigned : List Char → Except ScalarFault Nat) (cs : List Char) :
    Except ScalarFault Int :=
  let (negative, digits) :=
    match cs with
    | '-' :: cs => (true, cs)
    | '+' :: cs => (false, cs)
    | cs => (false, cs)
  match unsigned digits with
  | .error e => .error e
  | .ok n =>
    if negative then if n ≤ 9223372036854775808 then .ok (-n) else .error .outOfRange
    else if n < 9223372036854775808 then .ok n
    else .error .outOfRange

/-- Reads digits in a base. -/
def magnitudeIn (base : Nat) (cs : List Char) : Except ScalarFault Nat :=
  if cs.isEmpty then .error .malformed else magnitudeFrom base 0 cs

/-- Reads a decimal number with an optional sign. -/
def decimalInt (s : String) : Except ScalarFault Int :=
  signedInt (magnitudeIn 10) s.toList

/-! ## Literals -/

/-- The base that a literal names, and the digits after the name.  A zero in front of other digits names
base eight. -/
def literalBase (cs : List Char) : Nat × List Char :=
  match cs with
  | '0' :: c :: d :: rest =>
    if c = 'b' ∨ c = 'B' then (2, d :: rest)
    else if c = 'o' ∨ c = 'O' then (8, d :: rest)
    else if c = 'x' ∨ c = 'X' then (16, d :: rest)
    else (8, c :: d :: rest)
  | '0' :: rest => (8, rest)
  | cs => (10, cs)

/-- Whether every underscore stands between digits, given whether there is a digit before. -/
def underscoresApart : (afterDigit : Bool) → List Char → Bool
  | _, [] => true
  | true, '_' :: c :: cs => c ≠ '_' && underscoresApart true (c :: cs)
  | _, '_' :: _ => false
  | _, _ :: cs => underscoresApart true cs

/-- Reads a literal without its sign. -/
def literalMagnitude (cs : List Char) : Except ScalarFault Nat :=
  if cs.isEmpty then .error .malformed
  else
    let (base, digits) := literalBase cs
    match magnitudeFrom base 0 (digits.filter (· ≠ '_')) with
    | .error e => .error e
    | .ok n => if underscoresApart (cs.head? = some '0') digits then .ok n else .error .malformed

/-- Reads a literal with an optional sign. -/
def literalInt (s : String) : Except ScalarFault Int :=
  signedInt literalMagnitude s.toList

/-! ## Truth values -/

/-- Reads a truth value. -/
def boolean? (s : String) : Option Bool :=
  if ["1", "t", "T", "true", "TRUE", "True"].contains s then some true
  else if ["0", "f", "F", "false", "FALSE", "False"].contains s then some false
  else none

end Text

end TapeMachine
