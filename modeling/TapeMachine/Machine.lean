import TapeMachine.Error
import TapeMachine.Tape.JumpTable
import TapeMachine.Tape.Scan
import TapeMachine.Tape.Snapshot

/-!
# The machine

A machine is a tape with a code pointer `ip` and a data pointer `ptr`, a count of the ticks done so far,
and the options it was built with.

How a machine ends depends on its extend level.  At level zero it runs while the code pointer is before
the data region.  From level one on it runs until the halt operator, or until the code pointer leaves
the tape; it may then run into its own data.

The data pointer goes round: moving past the last cell leads to the first, and moving before the first
cell leads to the last.  Only the place a move ends at is tested, and a plain assignment outside the data
region is ignored.
-/

set_option autoImplicit false
namespace TapeMachine

/-- How a machine is to run. -/
structure Options where
  /-- Zero for the core operators alone, more for the extended ones too. -/
  extend : Int := 0
  /-- Whether the brackets of the code region are paired before running. -/
  precompute : Bool := false
  /-- The greatest number of ticks, if positive. -/
  tickLimit : Int := 0
  deriving DecidableEq, Repr

/-- How a change applies its value.  A tag that names no mode is kept as it is. -/
inductive ChangeMode where
  | add
  | sub
  | set
  | unknown (tag : Int)
  deriving DecidableEq, Repr

namespace ChangeMode

def ofTag (n : Int) : ChangeMode :=
  if n = 0 then add else if n = 1 then sub else if n = 2 then set else unknown n

def name : ChangeMode → String
  | add => "add"
  | sub => "sub"
  | set => "set"
  | unknown n => s!"ChangeMode({n})"

end ChangeMode

/-- A change of a cell value or of the data pointer. -/
structure Change (α : Type) where
  mode : ChangeMode
  value : α
  deriving DecidableEq, Repr

/-- The state of a machine. -/
structure Machine where
  tape : Tape
  ip : Int
  ptr : Tape.Address
  /-- The ticks done so far.  This is a number of any size: that a count in a word starts over after
  `2 ^ 63` ticks is left out. -/
  ticks : Nat
  halted : Bool
  options : Options
  jumps : Option JumpTable

namespace Machine

/-- A machine ready to run a program on `dataLength` zeroed data cells. -/
def build (program : List UInt8) (dataLength : Int) (options : Options) : Except Error Machine :=
  if options.extend < 0 then .error Condition.extendInvalid
  else
    let tape := Tape.ofProgram program dataLength
    if tape.dataLength = 0 then .error Condition.noData
    else .ok {
      tape
      ip := Tape.codeStart
      ptr := tape.firstData
      ticks := 0
      halted := false
      options
      jumps := if options.precompute then some (JumpTable.ofTape tape) else none }

/-- Whether another tick will execute an operator. -/
def isRunning (m : Machine) : Bool :=
  if 1 ≤ m.options.extend then !m.halted && m.ip < m.tape.size else m.ip < m.tape.dataStart

/-- Whether the ticks done so far are as many as are allowed. -/
def atTickLimit (m : Machine) : Bool :=
  0 < m.options.tickLimit && m.options.tickLimit ≤ m.ticks

/-- The tape index of the data pointer. -/
def ptrIndex (m : Machine) : Int :=
  m.tape.index m.ptr

/-- The value of the cell under the data pointer. -/
def cell? (m : Machine) : Option UInt8 :=
  m.tape.cell? m.ptr

/-- Writes the cell under the data pointer. -/
def putCell (m : Machine) (v : UInt8) : Machine :=
  { m with tape := m.tape.setCell m.ptr v }

/-- Writes the storage cell. -/
def putStorage (m : Machine) (v : UInt8) : Machine :=
  { m with tape := m.tape.setStorage v }

/-- The operator at the code pointer.  Off the tape there is nothing to do. -/
def opcode (m : Machine) : Operator :=
  Operator.decode m.options.extend ((m.tape.get? m.ip).getD 0)

/-- A copy of the tape and the data pointer. -/
def snapshot (m : Machine) : Snapshot :=
  m.tape.snapshot m.ptr

/-! ## Changing cells and the data pointer -/

/-- What a change makes of a cell value; sums are taken modulo 256. -/
def Change.onByte (c : Change UInt8) (v : UInt8) : UInt8 :=
  match c.mode with
  | .add => v + c.value
  | .sub => v - c.value
  | .set => c.value
  | .unknown _ => v

/-- Applies a change to the cell under the data pointer. -/
def changeCell (m : Machine) (c : Change UInt8) : Machine :=
  match m.cell? with
  | some v => m.putCell (Change.onByte c v)
  | none => m

/-- Applies a change to the data pointer. -/
def changePtr (m : Machine) (c : Change Int) : Machine :=
  match c.mode with
  | .add =>
    { m with ptr := (m.tape.address? (wrap (m.ptrIndex + c.value))).getD m.tape.firstData }
  | .sub =>
    { m with ptr := (m.tape.address? (wrap (m.ptrIndex - c.value))).getD m.tape.lastData }
  | .set => { m with ptr := (m.tape.address? c.value).getD m.ptr }
  | .unknown _ => m

/-! ## Jumps -/

/-- Which way a taken jump leads. -/
inductive Direction where
  | forward
  | backward
  deriving DecidableEq, Repr

/-- The partner of the bracket at the code pointer: looked up where the table has it, and otherwise
found by a scan. -/
def partner (m : Machine) (d : Direction) : Scan :=
  match m.jumps.bind (·.get? m.ip) with
  | some target => .found target
  | none =>
    match d with
    | .forward => m.tape.scanForward m.ip
    | .backward => m.tape.scanBackward m.ip

end Machine

end TapeMachine
