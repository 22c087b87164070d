import TapeMachine.Settings

/-!
# Settings from the environment

Five of the fields can be set by a variable.  Each variable is read by itself: one that cannot be read is
reported and leaves its field alone, and the others are not affected.
-/

set_option autoImplicit false
namespace TapeMachine

/-- The value of each variable that is set. -/
abbrev Environment : Type :=
  List (String × String)

namespace Settings

/-- The fields that can be set by a variable, in the order they are looked at. -/
def variableNames : List (Field × String) :=
  [(.dataLength, "BFVM_DATA_LENGTH"), (.extend, "BFVM_EXTEND"), (.precompute, "BFVM_PRECOMPUTE"),
    (.tickLimit, "BFVM_TICK_LIMIT"), (.color, "BFVM_COLOR")]

/-- Reads an integer from a variable. -/
def integerOf (text : String) : Except Error Int :=
  match Text.decimalInt text with
  | .ok n => .ok n
  | .error e => .error (.scalar .integer text e)

/-- Reads a truth value from a variable. -/
def booleanOf (text : String) : Except Error Bool :=
  match Text.boolean? text with
  | some b => .ok b
  | none => .error (.scalar .boolean text .malformed)

/-- Reads the value of a field from a variable. -/
def readVariable (f : Field) (text : String) : Except Error Setting :=
  match f with
  | .dataLength => (integerOf text).map .dataLength
  | .extend => (integerOf text).map .extend
  | .precompute => (booleanOf text).map .precompute
  | .tickLimit => (integerOf text).map .tickLimit
  | .dump => (booleanOf text).map .dump
  | .color => .ok (.color text)
  | .verbose => (booleanOf text).map .verbose

/-- What the variables that are set have to say about their fields, in order. -/
def readVariables (env : Environment) : List (Except Error Setting) :=
  variableNames.filterMap fun (f, name) =>
    (env.lookup name).map fun text =>
      (readVariable f text).mapError fun e => .settings ("$" ++ name) e

/-- The assignments among some results. -/
def accepted (results : List (Except Error Setting)) : List Setting :=
  results.filterMap fun
    | .ok c => some c
    | .error _ => none

/-- The errors among some results. -/
def rejected (results : List (Except Error Setting)) : List Error :=
  results.filterMap fun
    | .ok _ => none
    | .error e => some e

/-- Takes over the variables that can be read, and reports those that cannot. -/
def fromEnvironment (env : Environment) (s : Settings) : Settings × Option Error :=
  let results := readVariables env
  (s.assignAll (accepted results), Error.join? (rejected results))

end Settings

end TapeMachine
