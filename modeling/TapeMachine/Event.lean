import TapeMachine.Machine
import TapeMachine.Text.Utf8

/-!
# Log events

What happens around a run is recorded as events.  An event has a level, a message, and named fields; as a
line of text it is those three, separated by tabs, with the fields between braces.

Texts in a line are quoted.  Program text is bytes, and may hold bytes that are no characters; each of
them is written as the replacement character, escaped.
-/

set_option autoImplicit false
namespace TapeMachine

/-- How much an event matters. -/
inductive Level where
  | debug
  | warn
  | error
  deriving DecidableEq, Repr

namespace Level

def name : Level → String
  | debug => "debug"
  | warn => "warn"
  | error => "error"

/-- How the level is written in a line. -/
def label : Level → String
  | debug => "DEBUG"
  | warn => "WARN"
  | error => "ERROR"

end Level

/-- The value of a field of an event. -/
inductive FieldValue where
  | int (n : Int)
  | bool (b : Bool)
  | text (s : String)
  | bytes (bs : List UInt8)
  deriving DecidableEq, Repr

/-- Something that happens while a program is loaded and run. -/
inductive Event where
  | reading (origin name : String) (length : Nat)
  | created (options : Options) (dataLength : Int) (code : List UInt8)
  | tick (ip : Int) (region : Region) (op : Operator) (ptr : Int) (cell : UInt8)
  | halted (byOperator : Bool) (ticks sent received : Nat)
  | fault (e : Error)
  | aborted (e : Error)
  deriving Repr, BEq

namespace Event

def level : Event → Level
  | fault _ => .error
  | aborted _ => .warn
  | _ => .debug

def message : Event → String
  | reading .. => "reading program"
  | created .. => "created vm"
  | tick .. => "tick"
  | halted .. => "halted"
  | fault _ => "fault"
  | aborted _ => "aborted"

/-- The named fields of an event, in the order they are written. -/
def fields : Event → List (String × FieldValue)
  | reading origin name length =>
    [("origin", .text origin), ("name", .text name), ("bytes", .int length)]
  | created options dataLength code =>
    [("extend", .int options.extend), ("data_length", .int dataLength),
      ("precompute", .bool options.precompute), ("code", .bytes code)]
  | tick ip region op ptr cell =>
    [("ip", .int ip), ("region", .text region.name), ("op", .text op.name), ("ptr", .int ptr),
      ("cell", .int cell.toNat)]
  | halted byOperator ticks sent received =>
    [("halt_op", .bool byOperator), ("ticks", .text (Text.grouped ticks)), ("sent", .int sent),
      ("received", .int received)]
  | fault e => [("error", .text e.message)]
  | aborted e => [("error", .text e.message)]

/-! ## Lines -/

/-- How a character of a text is written between the quotes of a line. -/
def lineChar : Option Char → List Char
  | none => ['\\', 'u', 'f', 'f', 'f', 'd']
  | some c =>
    if c = '"' ∨ c = '\\' then ['\\', c]
    else if c = '\n' then ['\\', 'n']
    else if c = '\r' then ['\\', 'r']
    else if c = '\t' then ['\\', 't']
    else if c.toNat < 0x20 then '\\' :: 'u' :: Text.fixedHex 4 c.toNat
    else [c]

/-- A text between the quotes of a line. -/
def lineText (cs : List (Option Char)) : String :=
  String.ofList ('"' :: cs.flatMap lineChar ++ ['"'])

/-- How a field value is written in a line. -/
def lineValue : FieldValue → String
  | .int n => toString n
  | .bool b => if b then "true" else "false"
  | .text s => lineText (s.toList.map some)
  | .bytes bs => lineText (Text.decode bs)

/-- An event as a line of text. -/
def line (e : Event) : String :=
  let fields := e.fields.map fun f => lineText (f.1.toList.map some) ++ ": " ++ lineValue f.2
  e.level.label ++ "\t" ++ e.message ++ "\t\x7b" ++ ", ".intercalate fields ++ "\x7d\n"

end Event

end TapeMachine
