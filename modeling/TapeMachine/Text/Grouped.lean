/-!
# Grouped numbers

Integers in messages are written in decimal with a comma before every third digit from the right:
`999`, `1,000`, `-12,345,678`.
-/

set_option autoImplicit false
namespace TapeMachine.Text

/-- Puts a comma between groups of three, counting from the front.  The list holds the digits of a
number from the least significant one on. -/
def groupDigits : List Char → List Char
  | a :: b :: c :: d :: rest => a :: b :: c :: ',' :: groupDigits (d :: rest)
  | digits => digits

/-- An integer in decimal, with a comma between the thousands. -/
def grouped (n : Int) : String :=
  let digits := (groupDigits (Nat.toDigits 10 n.natAbs).reverse).reverse
  String.ofList (if n < 0 then '-' :: digits else digits)

end TapeMachine.Text
