import TapeMachine.Text.Number

/-!
# Numbered characters

In a quoted text an escape can name a character by its number, in hexadecimal digits.
-/

set_option autoImplicit false
namespace TapeMachine.Text

/-- The number of some hexadecimal digits. -/
def hexNumber? (cs : List Char) : Option Nat :=
  if cs.all (isDigitIn 16) then some (numberIn 16 cs) else none

/-- The character with a number, if there is one. -/
def scalarChar? (cs : List Char) : Option Char := do
  let n ← hexNumber? cs
  if n.isValidChar then some (Char.ofNat n) else none

end TapeMachine.Text
