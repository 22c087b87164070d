import TapeMachine.Tape
import TapeMachine.Walk

/-!
# Snapshots

A snapshot is a copy of the tape together with the borders of its regions and the data pointer.  It is
read byte by byte in tape order, each byte tagged with its region: first the storage span up to
`codeStart`, then the code span up to `dataStart`, then the data span up to the end.

The fields of a snapshot need not fit together.  A span that reaches off the tape cannot be read, and
then neither can the snapshot.
-/

set_option autoImplicit false
namespace TapeMachine

/-- A single tape byte tagged with its region. -/
structure Cell where
  index : Int
  region : Region
  value : UInt8
  deriving DecidableEq, Repr

/-- A copy of the machine memory and the positions in it. -/
structure Snapshot where
  tape : Array UInt8
  codeStart : Int
  dataStart : Int
  dataPtr : Int
  deriving DecidableEq, Repr

/-- Copies the tape along with a data address. -/
def Tape.snapshot (t : Tape) (a : Tape.Address) : Snapshot :=
  ⟨t.bytes, Tape.codeStart, t.dataStart, t.index a⟩

namespace Snapshot

/-- The cells from one index up to another, tagged with a region, if all of them are on the tape. -/
def span? (s : Snapshot) (region : Region) (first last : Int) : Option (List Cell) :=
  if last ≤ first then some []
  else if first < 0 ∨ s.tape.size < last then none
  else some <| (List.range' first.toNat (last - first).toNat).map fun (i : Nat) =>
    ⟨i, region, s.tape.getD i 0⟩

/-- The three spans of a snapshot, in tape order. -/
def spans? (s : Snapshot) : Option (List (List Cell)) := do
  let storage ← s.span? .storage 0 s.codeStart
  let code ← s.span? .code s.codeStart s.dataStart
  let data ← s.span? .data s.dataStart s.tape.size
  return [storage, code, data]

/-- Every byte of the snapshot in tape order. -/
def cells? (s : Snapshot) : Option (List Cell) :=
  s.spans?.map fun spans => (Walk.firstOf none spans).got.toList

/-- The first `k` cells of the snapshot. -/
def firstCells? (s : Snapshot) (k : Nat) : Option (List Cell) :=
  s.spans?.map fun spans => (Walk.firstOf (some k) spans).got.toList

end Snapshot

end TapeMachine
