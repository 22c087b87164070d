import TapeMachine.Command.Flag

/-!
# Invocations

The arguments of the command are flags, and then operands.  A flag starts with one dash or two; its value follows
after an equals sign or as the next argument.  A toggle takes no further argument.  Flags end at two dashes, or
at the first argument that is no flag; a single dash is none.

Arguments are read from left to right, and the first problem is reported.
-/

set_option autoImplicit false
namespace TapeMachine

/-- What the command was asked to do. -/
structure Invocation where
  /-- Program text. -/
  program : String := ""
  settingsFile : String := ""
  input : String := "-"
  output : String := "-"
  /-- The settings given by flags, in order. -/
  changes : List Setting := []
  operands : List String := []
  deriving DecidableEq, Repr

namespace Invocation

/-- What is wrong with the arguments. -/
inductive Problem where
  /-- Only an explanation is asked for. -/
  | helpWanted
  | notFlag (argument : String)
  | unknownFlag (name : String)
  | valueMissing (f : Flag)
  | valueRefused (f : Flag) (text : String) (fault : ScalarFault)
  deriving DecidableEq, Repr

namespace Problem

/-- How a fault is told of the value of a flag. -/
def faultText : ScalarFault → String
  | .malformed => "parse error"
  | .outOfRange => "value out of range"

/-- What is said about a problem. -/
def message : Problem → String
  | helpWanted => ""
  | notFlag argument => "bad flag syntax: " ++ argument ++ "\n"
  | unknownFlag name => "flag provided but not defined: -" ++ name ++ "\n"
  | valueMissing f => "flag needs an argument: -" ++ f.name ++ "\n"
  | valueRefused f text fault =>
    match f.kind with
    | .toggle =>
      "invalid boolean value " ++ Text.quoted text ++ " for -" ++ f.name ++ ": " ++ faultText fault ++
        "\n"
    | _ =>
      "invalid value " ++ Text.quoted text ++ " for flag -" ++ f.name ++ ": " ++ faultText fault ++ "\n"

/-- The exit status after a problem. -/
def exit : Problem → Nat
  | helpWanted => 0
  | _ => 2

end Problem

/-! ## Single arguments -/

/-- What an argument is. -/
inductive Argument where
  | operand
  | flagsEnd
  | notFlag
  | flag (name : String) (value : Option String)
  deriving DecidableEq, Repr

/-- The flag whose dashes were taken off. -/
def Argument.ofName : List Char → Argument
  | [] => .notFlag
  | c :: cs =>
    if c = '-' ∨ c = '=' then .notFlag
    else
      let value := match cs.dropWhile (· ≠ '=') with
        | _ :: value => some (String.ofList value)
        | [] => none
      .flag (String.ofList (c :: cs.takeWhile (· ≠ '='))) value

/-- Tells what an argument is. -/
def Argument.read (argument : String) : Argument :=
  match argument.toList with
  | ['-', '-'] => .flagsEnd
  | '-' :: '-' :: name => .ofName name
  | '-' :: c :: name => .ofName (c :: name)
  | _ => .operand

/-! ## Values -/

/-- Reads the value of an integer flag. -/
def integer (f : Flag) (text : String) : Except Problem Int :=
  (Text.literalInt text).mapError (.valueRefused f text)

/-- Reads the value of a toggle. -/
def toggle (f : Flag) (text : String) : Except Problem Bool :=
  match Text.boolean? text with
  | some b => .ok b
  | none => .error (.valueRefused f text .malformed)

/-- Adds a setting. -/
def change (inv : Invocation) (c : Setting) : Invocation :=
  { inv with changes := inv.changes ++ [c] }

/-- Takes a flag with its value. -/
def give (inv : Invocation) (f : Flag) (text : String) : Except Problem Invocation :=
  match f with
  | .program => .ok { inv with program := text }
  | .settingsFile => .ok { inv with settingsFile := text }
  | .input => .ok { inv with input := text }
  | .output => .ok { inv with output := text }
  | .color => .ok (inv.change (.color text))
  | .dataLength => (integer f text).map fun n => inv.change (.dataLength n)
  | .extend => (integer f text).map fun n => inv.change (.extend n)
  | .tickLimit => (integer f text).map fun n => inv.change (.tickLimit n)
  | .precompute => (toggle f text).map fun b => inv.change (.precompute b)
  | .dump => (toggle f text).map fun b => inv.change (.dump b)
  | .verbose => (toggle f text).map fun b => inv.change (.verbose b)

/-- The names that ask for an explanation, unless there is a flag of that name. -/
def helpNames : List String :=
  ["help", "h"]

/-- The flag with a name, or the problem that there is none. -/
def flagNamed (name : String) : Except Problem Flag :=
  match Flag.ofName? name with
  | some f => .ok f
  | none => .error (if helpNames.contains name then .helpWanted else .unknownFlag name)

/-- The value of a flag, and the arguments after it. -/
def valueOf (f : Flag) (value : Option String) (rest : List String) :
    Except Problem (String × List String) :=
  match value, f.kind, rest with
  | some text, _, rest => .ok (text, rest)
  | none, .toggle, rest => .ok ("true", rest)
  | none, _, text :: rest => .ok (text, rest)
  | none, _, [] => .error (.valueMissing f)

/-- Reads arguments one flag at a time, for at most a number of flags. -/
def readFor : Nat → Invocation → List String → Except Problem Invocation
  | 0, inv, _ => .ok inv
  | _, inv, [] => .ok inv
  | n + 1, inv, argument :: rest =>
    match Argument.read argument with
    | .operand => .ok { inv with operands := argument :: rest }
    | .flagsEnd => .ok { inv with operands := rest }
    | .notFlag => .error (.notFlag argument)
    | .flag name value => do
      let f ← flagNamed name
      let (text, rest) ← valueOf f value rest
      readFor n (← inv.give f text) rest

/-- Reads the arguments of the command. -/
def read (arguments : List String) : Except Problem Invocation :=
  readFor arguments.length {} arguments

end Invocation

end TapeMachine
