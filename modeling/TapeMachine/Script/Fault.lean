import TapeMachine.Error
import TapeMachine.Text.Quoted
import TapeMachine.Text.Utf8

/-!
# Faults of a script

Everything that can go wrong while a script is evaluated, and how it is told.  Texts that cannot be
read as a script at all are not faults: they are refused before anything is evaluated.

The helpers that a script is given fail with errors of their own, which stay what they are.
-/

set_option autoImplicit false
namespace TapeMachine.Script

/-- A text for people, with a mark at every byte that is no character. -/
def readable (bs : List UInt8) : String :=
  String.ofList ((Text.decode bs).map fun c => c.getD '\ufffd')

/-- Why a value is no integer. -/
inductive IntegerFault where
  | type (type : String)
  | infinite
  | undefined
  deriving DecidableEq, Repr

def IntegerFault.message : IntegerFault → String
  | type t => s!"cannot convert {t} to int"
  | infinite => "cannot convert float infinity to integer"
  | undefined => "cannot convert float NaN to integer"

/-- Why a value is no integer of 32 bits. -/
inductive SmallFault where
  | type (type : String)
  | range (n : Int)
  deriving DecidableEq, Repr

def SmallFault.message : SmallFault → String
  | type t => s!"got {t}, want int"
  | range n => s!"{n} out of range"

/-- Why a format could not be filled. -/
inductive FormatFault where
  | tooFew
  | tooMany
  | incomplete
  | incompleteKey
  | noMapping
  | noKey (key : List UInt8)
  | integer (letter : Char) (why : IntegerFault)
  | float (letter : Char) (type : String)
  | codePoint (n : Int)
  | singleCharacter
  | character (type : String)
  | letter (c : Char)
  deriving DecidableEq, Repr

def FormatFault.message : FormatFault → String
  | tooFew => "not enough arguments for format string"
  | tooMany => "too many arguments for format string"
  | incomplete => "incomplete format"
  | incompleteKey => "incomplete format key"
  | noMapping => "format requires a mapping"
  | noKey key => "key not found: " ++ readable key
  | integer c why =>
    let reason := why.message
    s!"%{c} format requires integer: {reason}"
  | float c t => s!"%{c} format requires float, not {t}"
  | codePoint n => s!"%c format requires a valid Unicode code point, got {n}"
  | singleCharacter => "%c format requires a single-character string"
  | character t => s!"%c format requires int or single-character string, not {t}"
  | letter c => s!"unknown conversion %{c}"

/-- Why a text or a value was not turned into an integer. -/
inductive ConversionFault where
  | value (why : IntegerFault)
  | baseType (type : String)
  | baseRange
  | baseUnused
  | literal (base : Nat) (text : List UInt8)
  deriving DecidableEq, Repr

def ConversionFault.message : ConversionFault → String
  | value why => why.message
  | baseType t => s!"for base, got {t}, want int"
  | baseRange => "base must be an integer >= 2 && <= 36"
  | baseUnused => "can't convert non-string with explicit base"
  | literal base text =>
    let shown := readable text
    s!"invalid literal with base {base}: {shown}"

/-- Why the evaluation of a script stopped. -/
inductive Fault where
  /-- A helper that was given to the script failed. -/
  | helper (e : Error)
  /-- A function was called with the wrong number of arguments. -/
  | argumentCount (function : String) (got least most : Nat)
  /-- A function that takes exactly one argument got another number of them. -/
  | notSole (function : String) (got : Nat)
  /-- A function was called with named arguments, and tells so after its own name. -/
  | namedArguments (function : String)
  /-- A function was called with named arguments, and accepts none. -/
  | namesRefused (function : String)
  /-- An argument has the wrong type. -/
  | argumentType (function : String) (parameter : Nat) (got want : String)
  /-- An argument does not fit a signed 64-bit word. -/
  | argumentRange (function : String) (parameter : Nat) (value : Int)
  /-- A function has no parameter of this name, but perhaps another one was meant. -/
  | unknownName (function name : String) (meant : Option String)
  | repeatedName (function name : String)
  | missingName (function name : String)
  | namedType (function name got want : String)
  | zeroStep
  | noLength (type : String)
  | codePoints (count : Nat)
  | byteCount (count : Nat)
  | noCharacter (type : String)
  | conversion (why : ConversionFault)
  | notJoinable (type : String)
  /-- No such operation on operands of these types. -/
  | binaryOperands (op left right : String)
  | unaryOperand (op operand : String)
  | divisionByZero
  | fractionByZero
  | moduloByZero
  | fractionModuloByZero
  | fractionRange
  | shift (why : SmallFault)
  | negativeShift (count : Int)
  | largeShift (count : Int)
  | repeatCount (count : Int)
  | excessiveRepeat (length count : Int)
  /-- The order of these types is not defined. -/
  | unordered (op left right : String)
  | comparisonDepth
  | notInText (type : String)
  | notInBytes (type : String)
  | byteRange (n : Int)
  | notInRange (type : String)
  /-- An index outside a sequence of the given length. -/
  | indexRange (type : String) (index length : Int)
  | index (type : String) (why : SmallFault)
  | unindexable (type index : String)
  | noKey (key : String)
  | repeatedKey (key : String)
  | unhashable (type : String)
  | notIterable (type : String)
  | notSequence (type : String)
  | unpackTooMany (got : Int) (want : Nat)
  | unpackTooFew (got want : Nat)
  | notCallable (type : String)
  | noMember (type name : String) (meant : Option String)
  | unassigned (kind name : String)
  | recursion (function : String)
  | tooManyArguments (function : String) (want got : Nat)
  | missingArguments (function : String) (names : List String)
  | repeatedArgument (function name : String)
  | unknownArgument (function name : String)
  | format (why : FormatFault)
  | loadUnavailable
  /-- The script called `fail`. -/
  | failed (text : List UInt8)
  deriving Repr

namespace Fault

/-- A count with its noun. -/
def plural (n : Nat) (noun : String) : String :=
  if n = 1 then s!"{n} {noun}" else s!"{n} {noun}s"

/-- How many arguments are wanted, of which there are too few or too many. -/
def wanted (got least most : Nat) : String :=
  if least = most then s!"{least}"
  else if got < least then s!"at least {least}"
  else s!"at most {most}"

/-- What may have been meant. -/
def suggestion (mark : String) : Option String → String
  | some s => s!" (did you mean {mark}{s}?)"
  | none => ""

/-- The faults of calls of functions that every script can use, put into words. -/
def callMessage? : Fault → Option String
  | argumentCount f got least most => some (s!"{f}: got {got} arguments, want " ++ wanted got least most)
  | notSole f got => some s!"{f}: got {got} arguments, want exactly 1"
  | namedArguments f => some s!"{f}: unexpected keyword arguments"
  | namesRefused f => some s!"{f} does not accept keyword arguments"
  | argumentType f k got want => some s!"{f}: for parameter {k}: got {got}, want {want}"
  | argumentRange f k n =>
    some s!"{f}: for parameter {k}: {n} out of range (want value in signed 64-bit range)"
  | unknownName f name meant =>
    some (s!"{f}: unexpected keyword argument " ++ Text.quoted name ++ suggestion "" meant)
  | repeatedName f name =>
    some (s!"{f}: got multiple values for keyword argument " ++ Text.quoted name)
  | missingName f name => some s!"{f}: missing argument for {name}"
  | namedType f name got want =>
    some (s!"{f}: for parameter " ++ Text.quoted name ++ s!": got {got}, want {want}")
  | zeroStep => some "range: step argument must not be zero"
  | noLength t => some s!"len: value of type {t} has no len"
  | codePoints n => some s!"ord: string encodes {n} Unicode code points, want 1"
  | byteCount n => some s!"ord: bytes has length {n}, want 1"
  | noCharacter t => some s!"ord: got {t}, want string or bytes"
  | conversion why => some ("int: " ++ why.message)
  | notJoinable t => some s!"join: in list, want string, got {t}"
  | failed text => some ("fail: " ++ readable text)
  | _ => none

/-- What a fault says. -/
def message (fault : Fault) : String :=
  match fault with
  | helper e => e.message
  | binaryOperands op l r => s!"unknown binary op: {l} {op} {r}"
  | unaryOperand op t => s!"unknown unary op: {op} {t}"
  | divisionByZero => "floored division by zero"
  | fractionByZero => "floating-point division by zero"
  | moduloByZero => "integer modulo by zero"
  | fractionModuloByZero => "floating-point modulo by zero"
  | fractionRange => "int too large to convert to float"
  | shift why => why.message
  | negativeShift n => s!"negative shift count: {n}"
  | largeShift n => s!"shift count too large: {n}"
  | repeatCount n => s!"repeat count {n} too large"
  | excessiveRepeat len n => s!"excessive repeat ({len} * {n} elements)"
  | unordered op l r => s!"{l} {op} {r} not implemented"
  | comparisonDepth => "comparison exceeded maximum recursion depth"
  | notInText t => s!"'in <string>' requires string as left operand, not {t}"
  | notInBytes t => s!"'in bytes' requires bytes or int as left operand, not {t}"
  | byteRange n => s!"int in bytes: {n} out of range (want value in unsigned 8-bit range)"
  | notInRange t => s!"'in <range>' requires integer as left operand, not {t}"
  | indexRange t i len =>
    if len = 0 then s!"index {i} out of range: empty {t}"
    else
      let low := -len
      let high := len - 1
      s!"{t} index {i} out of range [{low}:{high}]"
  | index t why => s!"{t} index: " ++ why.message
  | unindexable t i => s!"unhandled index operation {t}[{i}]"
  | noKey key => s!"key {key} not in dict"
  | repeatedKey key => s!"duplicate key: {key}"
  | unhashable t =>
    if t = "list" ∨ t = "dict" then s!"unhashable type: {t}" else s!"unhashable: {t}"
  | notIterable t => s!"{t} value is not iterable"
  | notSequence t => s!"got {t} in sequence assignment"
  | unpackTooMany got want => s!"too many values to unpack (got {got}, want {want})"
  | unpackTooFew got want => s!"too few values to unpack (got {got}, want {want})"
  | notCallable t => s!"invalid call of non-function ({t})"
  | noMember t name meant => s!"{t} has no .{name} field or method" ++ suggestion "." meant
  | unassigned kind name => s!"{kind} variable {name} referenced before assignment"
  | recursion f => s!"function {f} called recursively"
  | tooManyArguments f want got =>
    if want = 0 then s!"function {f} accepts no arguments ({got} given)"
    else
      let count := plural want "positional argument"
      s!"function {f} accepts {count} ({got} given)"
  | missingArguments f names =>
    let count := plural names.length "argument"
    let list := ", ".intercalate names
    s!"function {f} missing {count} ({list})"
  | repeatedArgument f name =>
    s!"function {f} got multiple values for parameter " ++ Text.quoted name
  | unknownArgument f name =>
    s!"function {f} got an unexpected keyword argument " ++ Text.quoted name
  | format why => why.message
  | loadUnavailable => "load not implemented by this application"
  | fault => fault.callMessage?.getD ""

/-- A fault as an error. -/
def toError : Fault → Error
  | helper e => e
  | fault => .library fault.message

end Fault

end TapeMachine.Script
