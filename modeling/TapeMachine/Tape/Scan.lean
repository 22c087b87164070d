import TapeMachine.Operator
import TapeMachine.Tape

/-!
# Bracket scans

The partner of a bracket is found by walking the tape and counting nesting.  A scan does not stop at
the borders of the regions: behind the program it goes on through the data cells, and before it it
reaches the storage cell.

A scan that begins at `ip` looks at the neighbour of `ip` first.  It may run off the far end of the
tape, which means that the bracket is unmatched; and it may begin beyond the near end, where there is
nothing to look at.  The two are told apart in `Scan`.
-/

set_option autoImplicit false
namespace TapeMachine

/-- What a bracket scan came to. -/
inductive Scan where
  /-- The partner stands at this index. -/
  | found (target : Nat)
  /-- The scan left the tape, standing at this index. -/
  | unmatched (target : Int)
  /-- The scan began beyond the end it was walking away from. -/
  | offTape
  deriving DecidableEq, Repr

namespace Tape

/-- Walks forward over the `left` bytes from index `i` on, inside `depth` brackets that were opened
on the way, to the first `]` that closes none of them. -/
def seekClose (t : Tape) : (left depth i : Nat) → Option Nat
  | 0, _, _ => none
  | left + 1, depth, i =>
    let b := t.bytes.getD i 0
    if b = Operator.loopByte then t.seekClose left (depth + 1) (i + 1)
    else if b = Operator.againByte then
      match depth with
      | 0 => some i
      | depth + 1 => t.seekClose left depth (i + 1)
    else t.seekClose left depth (i + 1)

/-- Walks backward over the first `left` bytes, inside `depth` brackets that were closed on the way,
to the last `[` that opens none of them. -/
def seekOpen (t : Tape) : (left depth : Nat) → Option Nat
  | 0, _ => none
  | left + 1, depth =>
    let b := t.bytes.getD left 0
    if b = Operator.againByte then t.seekOpen left (depth + 1)
    else if b = Operator.loopByte then
      match depth with
      | 0 => some left
      | depth + 1 => t.seekOpen left depth
    else t.seekOpen left depth

/-- Looks for the `]` that matches a `[` at `ip`. -/
def scanForward (t : Tape) (ip : Int) : Scan :=
  let start := wrap (ip + 1)
  if start < 0 then .offTape
  else
    match t.seekClose (t.size - start.toNat) 0 start.toNat with
    | some target => .found target
    | none => .unmatched (max t.size start)

/-- Looks for the `[` that matches a `]` at `ip`. -/
def scanBackward (t : Tape) (ip : Int) : Scan :=
  let start := wrap (ip - 1)
  if t.size ≤ start then .offTape
  else
    match t.seekOpen (start + 1).toNat 0 with
    | some target => .found target
    | none => .unmatched (min (-1) start)

end Tape

end TapeMachine
