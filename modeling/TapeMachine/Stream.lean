/-!
# Streams

The ends of a console: an input that gives out its bytes and then keeps reporting how it ended, and an
output that takes bytes.

Everything written ends up in a `Sink`, which may refuse to grow beyond a limit.  An output writes to its
sink directly, or through a buffer of fixed size.  A buffered output collects bytes and hands the whole
buffer to the sink in one write, when it is flushed or when there is no room for more.  If the sink
refuses, the buffer stays as it is and the output is *stuck*: it fails from then on, always with the
error of that write.

An input and an output may be the same file.  Such an input has no bytes of its own: it gives out what has
reached the sink.
-/

set_option autoImplicit false
namespace TapeMachine

/-! ## Input -/

/-- How an input ends once its bytes are used up. -/
inductive Ending where
  /-- The input is at its end. -/
  | closed
  /-- The input is at its end and says so by an error. -/
  | cutShort
  /-- Reading failed. -/
  | failed (text : String)
  /-- The input goes on with what was written to the output, beyond its first `taken` bytes. -/
  | written (taken : Nat)
  deriving DecidableEq, Repr

/-- The unread bytes of an input, and what comes after them. -/
structure Input where
  rest : List UInt8 := []
  ending : Ending := .closed
  deriving DecidableEq, Repr

namespace Input

/-- Takes the next byte, or reports the end. -/
def next (s : Input) : Except Ending UInt8 × Input :=
  match s.rest with
  | b :: rest => (.ok b, { s with rest })
  | [] => (.error s.ending, s)

/-- How many bytes are taken from a file at a time. -/
def blockSize : Nat :=
  4096

/-- The input before a read, given what has reached the output.  If that is the same file and the bytes taken
from it are used up, the next block of it is taken. -/
def refill (s : Input) (written : Array UInt8) : Input :=
  match s.rest, s.ending with
  | [], .written taken =>
    let block := (written.extract taken (taken + blockSize)).toList
    ⟨block, .written (taken + block.length)⟩
  | _, _ => s

end Input

/-! ## Sinks -/

/-- Where written bytes end up.  A write that would make them more than `limit` stores nothing and
fails with `error`. -/
structure Sink where
  bytes : Array UInt8 := #[]
  limit : Option Nat := none
  error : String := ""
  deriving DecidableEq, Repr

namespace Sink

/-- Whether `n` more bytes can be stored. -/
def accepts (s : Sink) (n : Nat) : Bool :=
  match s.limit with
  | some limit => s.bytes.size + n ≤ limit
  | none => true

/-- Stores bytes in one write, all of them or none. -/
def write (s : Sink) (bs : List UInt8) : Except String Unit × Sink :=
  if s.accepts bs.length then (.ok (), { s with bytes := s.bytes ++ bs })
  else (.error s.error, s)

end Sink

/-! ## Buffers -/

/-- A buffer before a sink. -/
structure Buffer where
  sink : Sink := {}
  size : Nat
  pending : Array UInt8 := #[]
  stuck : Option String := none
  deriving DecidableEq, Repr

namespace Buffer

/-- The size of a buffer that was asked for without one. -/
def defaultSize : Nat :=
  4096

/-- An empty buffer.  A size that is not positive stands for the default. -/
def ofSize (size : Int) (sink : Sink) : Buffer :=
  { sink, size := if size ≤ 0 then defaultSize else size.toNat }

/-- How many more bytes fit. -/
def room (b : Buffer) : Nat :=
  b.size - b.pending.size

/-- Writes past the buffer, to the sink. -/
def writeThrough (bs : List UInt8) : Buffer → Except String Unit × Buffer
  | ⟨sink, size, pending, stuck⟩ =>
    match sink.write bs with
    | (.ok (), sink) => (.ok (), ⟨sink, size, pending, stuck⟩)
    | (.error e, sink) => (.error e, ⟨sink, size, pending, some e⟩)

/-- Hands the buffered bytes to the sink. -/
def flush (b : Buffer) : Except String Unit × Buffer :=
  match b.stuck with
  | some e => (.error e, b)
  | none =>
    if b.pending.isEmpty then (.ok (), b)
    else
      match b.writeThrough b.pending.toList with
      | (.ok (), b) => (.ok (), { b with pending := #[] })
      | failed => failed

/-- Takes a byte, after making room for it. -/
def push (b : Buffer) (byte : UInt8) : Except String Unit × Buffer :=
  match b.stuck with
  | some e => (.error e, b)
  | none =>
    if 0 < b.room then (.ok (), { b with pending := b.pending.push byte })
    else
      match b.flush with
      | (.ok (), b) => (.ok (), { b with pending := b.pending.push byte })
      | failed => failed

/-- Takes bytes, one after the other.  Every time the buffer is full and there are more, it is flushed. -/
def write (b : Buffer) : List UInt8 → Except String Unit × Buffer
  | [] => (match b.stuck with | some e => .error e | none => .ok (), b)
  | [byte] => b.push byte
  | byte :: more =>
    match b.push byte with
    | (.ok (), b) => b.write more
    | failed => failed

end Buffer

/-! ## Output -/

/-- An output: unbuffered, buffered, or unbuffered with a flush that always fails. -/
inductive Output where
  | direct (sink : Sink)
  | buffered (buffer : Buffer)
  | unflushable (sink : Sink) (error : String)
  deriving DecidableEq, Repr

namespace Output

/-- Where the bytes of an output end up. -/
def sink : Output → Sink
  | direct s => s
  | buffered b => b.sink
  | unflushable s _ => s

/-- The bytes taken but not yet in the sink. -/
def pending : Output → List UInt8
  | buffered b => b.pending.toList
  | _ => []

/-- Takes bytes in one write. -/
def write (bs : List UInt8) : Output → Except String Unit × Output
  | direct s => (s.write bs).map id direct
  | buffered b => (b.write bs).map id buffered
  | unflushable s e => (s.write bs).map id (unflushable · e)

/-- Brings all bytes taken so far to the sink. -/
def flush : Output → Except String Unit × Output
  | direct s => (.ok (), direct s)
  | buffered b => b.flush.map id buffered
  | unflushable s e => (.error e, unflushable s e)

end Output

end TapeMachine
