import TapeMachine.Channel
import TapeMachine.Stream

/-!
# The console

A console is a channel over an input and an output, either of which may be missing.  It counts the bytes
it passes on.  Pending output is flushed before every read, so that a prompt is visible before the
machine waits for the answer.
-/

set_option autoImplicit false
namespace TapeMachine

/-- An input, an output, and how many bytes went through each since the last rewind. -/
structure Console where
  input : Option Input := none
  output : Option Output := none
  /-- The bytes read since the last rewind, a number of any size: that a count in a word starts over after
  `2 ^ 63` bytes is left out. -/
  received : Nat := 0
  /-- The bytes written since the last rewind, in the same way. -/
  sent : Nat := 0
  deriving DecidableEq, Repr

namespace Console

/-- A failed operation together with the report of the stream. -/
def failure (c : Condition) (text : String) : Error :=
  .joined [c, .stream text]

/-- Starts counting anew.  What was read or written stays read or written. -/
def rewind (con : Console) : Console :=
  { con with received := 0, sent := 0 }

/-- Brings pending output to its sink. -/
def flush : Console → Except Error Unit × Console
  | ⟨input, none, received, sent⟩ => (.ok (), ⟨input, none, received, sent⟩)
  | ⟨input, some out, received, sent⟩ =>
    match out.flush with
    | (.ok (), out) => (.ok (), ⟨input, some out, received, sent⟩)
    | (.error e, out) => (.error (failure .outputFailed e), ⟨input, some out, received, sent⟩)

/-- The error of a read at the end of the input. -/
def endError : Ending → Error
  | .closed | .cutShort | .written _ => Condition.inputClosed
  | .failed e => failure .inputFailed e

/-- The bytes that have reached the sink of the output. -/
def written (con : Console) : Array UInt8 :=
  match con.output with
  | some out => out.sink.bytes
  | none => #[]

/-- Reads one byte, without flushing. -/
def read (con : Console) : Except Error UInt8 × Console :=
  match con with
  | ⟨none, out, received, sent⟩ => (.error Condition.inputClosed, ⟨none, out, received, sent⟩)
  | ⟨some input, out, received, sent⟩ =>
    match (input.refill con.written).next with
    | (.ok b, input) => (.ok b, ⟨some input, out, received + 1, sent⟩)
    | (.error ending, input) => (.error (endError ending), ⟨some input, out, received, sent⟩)

/-- Flushes, then reads one byte. -/
def receive (con : Console) : Except Error UInt8 × Console :=
  match con.flush with
  | (.ok (), con) => con.read
  | (.error e, con) => (.error e, con)

/-- Writes one byte. -/
def send (b : UInt8) : Console → Except Error Unit × Console
  | ⟨input, none, received, sent⟩ =>
    (.error Condition.outputFailed, ⟨input, none, received, sent⟩)
  | ⟨input, some out, received, sent⟩ =>
    match out.write [b] with
    | (.ok (), out) => (.ok (), ⟨input, some out, received, sent + 1⟩)
    | (.error e, out) => (.error (failure .outputFailed e), ⟨input, some out, received, sent⟩)

instance : Channel Console where
  receive := receive
  send := send

end Console

end TapeMachine
