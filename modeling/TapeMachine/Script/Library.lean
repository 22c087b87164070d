import TapeMachine.Error

/-!
# Script libraries

Scripts are neither read nor evaluated by the program itself.  That is left to a library, from which little is
asked: to carry out a script that may call some helper functions, and to say what the values are that come and
go between them.

A library is whatever fits this interface.  Nothing is said here about what it does with a script.
-/

set_option autoImplicit false
namespace TapeMachine.Script

/-- A function for scripts to call.  It gets the arguments without a name, and then those with one. -/
abbrev Helper (Value : Type) : Type :=
  List Value → List (String × Value) → Except Error Value

/-- What a library for scripts provides. -/
structure Library where
  /-- The values of scripts. -/
  Value : Type
  /-- A text as a value. -/
  ofText : List UInt8 → Value
  /-- The text that a value is, if it is one. -/
  text? : Value → Option (List UInt8)
  /-- The items of a value, if it is a list. -/
  items? : Value → Option (List Value)
  /-- The argument of a helper that takes a single word, given the name of the helper. -/
  wordArgument : (helper : String) → List Value → List (String × Value) → Except Error Int
  /-- The argument of a helper that takes a single text. -/
  textArgument : (helper : String) → List Value → List (String × Value) → Except Error (List UInt8)
  /-- Carries out a script, given the helpers by their names, the name of the script, and its text.  What
  comes of it are the values of the globals. -/
  exec : List (String × Helper Value) → (name : String) → (script : List UInt8) →
    Except Error (String → Option Value)

end TapeMachine.Script
