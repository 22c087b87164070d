import TapeMachine.Script.Eval
import TapeMachine.Script.Grammar

/-!
# The bundled script library

The other modules of this directory make up a library for scripts, which is put together here (`bundled`).  It
reads and evaluates a part of the language that is enough for most generator scripts.  A script with anything
else is refused, such as slices, anonymous functions, conditions and loops in functions, and most methods.

An error of a helper ends the evaluation, and is found below the error of the script.
-/

set_option autoImplicit false
namespace TapeMachine.Script

/-- Reads a script: its tokens, its statements, and what its names lead to. -/
def Resolved.ofText? (helpers : List String) (script : List UInt8) : Option Resolved := do
  let tokens ← Token.read? script
  let statements ← parse? tokens
  resolve? helpers statements

/-- Carries out a script, and gives its globals. -/
def exec (helpers : List (String × Helper Value)) (script : List UInt8) :
    Except Error (String → Option Value) :=
  match Resolved.ofText? (helpers.map (·.1)) script with
  | none => .error .malformed
  | some script =>
    match script.run helpers with
    | .ok globals => .ok fun x => globals.lookup x
    | .error fault => .error (.evaluation fault.toError)

/-- The sole argument of a helper, read in some way. -/
def argumentOf {α : Type} (helper : String) (read : Value → Except Fault α) (args : List Value)
    (named : List (String × Value)) : Except Error α :=
  (soleArgument helper args (named.map (·.1)) >>= read).mapError Fault.toError

/-- An argument that has to be a text. -/
def requiredText (helper : String) (v : Value) : Except Fault (List UInt8) :=
  match v with
  | .text bs => .ok bs
  | v => .error (.argumentType helper 1 v.type "string")

/-- **The bundled library.** -/
abbrev bundled : Library where
  Value := Value
  ofText := .text
  text?
    | .text bs => some bs
    | _ => none
  items?
    | .list items => some items
    | _ => none
  wordArgument helper := argumentOf helper (wordArgument helper 1)
  textArgument helper := argumentOf helper (requiredText helper)
  exec helpers _ script := exec helpers script

end TapeMachine.Script
