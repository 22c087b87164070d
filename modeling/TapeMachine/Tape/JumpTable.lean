import TapeMachine.Operator
import TapeMachine.Stack
import TapeMachine.Tape

/-!
# The jump table

The brackets of the code region can be paired once, before a run, with a stack of the brackets that
are still open.  A bracket without a partner inside the code region is left out of the table, so a
jump from it is still resolved by a scan.
-/

set_option autoImplicit false
namespace TapeMachine

/-- The partner of each paired bracket, by tape index. -/
structure JumpTable where
  partners : Array (Option Nat)
  deriving DecidableEq, Repr

namespace JumpTable

/-- The partner of the bracket at a tape index. -/
def get? (jt : JumpTable) (ip : Int) : Option Nat :=
  if ip < 0 then none else jt.partners.getD ip.toNat none

/-- Makes two indices partners of each other. -/
def pair (jt : JumpTable) (i j : Nat) : JumpTable :=
  ⟨(jt.partners.setIfInBounds i (some j)).setIfInBounds j (some i)⟩

/-- All entries, ordered by the index they jump from. -/
def toList (jt : JumpTable) : List (Nat × Nat) :=
  (List.range jt.partners.size).filterMap fun (i : Nat) => (jt.get? i).map fun j => (i, j)

/-- The brackets paired so far, and those still open. -/
structure Pairing where
  table : JumpTable
  opened : Stack Nat := {}

/-- Takes the byte at index `i` into account. -/
def Pairing.step (t : Tape) (p : Pairing) (i : Nat) : Pairing :=
  let b := t.bytes.getD i 0
  if b = Operator.loopByte then { p with opened := p.opened.push i }
  else if b = Operator.againByte then
    match p.opened.peek? with
    | some start => ⟨p.table.pair start i, p.opened.pop⟩
    | none => p
  else p

/-- Pairs the brackets of the code region of a tape. -/
def ofTape (t : Tape) : JumpTable :=
  ((List.range' Tape.codeStart (t.dataStart - Tape.codeStart)).foldl (Pairing.step t)
    { table := ⟨Array.replicate t.dataStart none⟩ }).table

end JumpTable

end TapeMachine
