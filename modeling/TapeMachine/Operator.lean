import TapeMachine.Text.Hex

/-!
# Operators

An instruction is a single byte.  The *core* operators are always active; the *extended* ones only
at an extend level of one or more.  Every byte that is not an operator at the current level does
nothing, so program text may be commented freely.

`Operator.ofByte` reads a byte without regard to the level, and `decode` with regard to it: a byte
that is inactive decodes to `nop`.
-/

set_option autoImplicit false
namespace TapeMachine

/-- The instruction table an operator belongs to.  A tag that names no table is kept as it is. -/
inductive OperatorClass where
  | none
  | core
  | extended
  | unknown (tag : Int)
  deriving DecidableEq, Repr

namespace OperatorClass

/-- The number an instruction table goes by. -/
def tag : OperatorClass → Int
  | none => 0
  | core => 1
  | extended => 2
  | unknown n => n

def ofTag (n : Int) : OperatorClass :=
  if n = 0 then none else if n = 1 then core else if n = 2 then extended else unknown n

def name : OperatorClass → String
  | none => "none"
  | core => "core"
  | extended => "extended"
  | unknown n => s!"OperatorClass({n})"

end OperatorClass

/-- An instruction of the machine.  `other` stands for a byte that is no operator at any level. -/
inductive Operator where
  | nop
  | inc
  | dec
  | right
  | left
  | output
  | input
  | loop
  | again
  | halt
  | store
  | load
  | shl
  | shr
  | not
  | xor
  | and
  | or
  | other (byte : UInt8)
  deriving DecidableEq, Repr

namespace Operator

/-- The byte of `[`. -/
abbrev loopByte : UInt8 := 0x5b

/-- The byte of `]`. -/
abbrev againByte : UInt8 := 0x5d

/-- Reads an instruction byte, at whatever level it may be active. -/
def ofByte : UInt8 → Operator
  | 0 => nop
  | 0x2b => inc
  | 0x2d => dec
  | 0x3e => right
  | 0x3c => left
  | 0x2e => output
  | 0x2c => input
  | 0x5b => loop
  | 0x5d => again
  | 0x40 => halt
  | 0x24 => store
  | 0x21 => load
  | 0x7b => shl
  | 0x7d => shr
  | 0x7e => not
  | 0x5e => xor
  | 0x26 => and
  | 0x7c => or
  | b => other b

/-- The instruction byte of an operator. -/
def toByte : Operator → UInt8
  | nop => 0
  | inc => 0x2b
  | dec => 0x2d
  | right => 0x3e
  | left => 0x3c
  | output => 0x2e
  | input => 0x2c
  | loop => loopByte
  | again => againByte
  | halt => 0x40
  | store => 0x24
  | load => 0x21
  | shl => 0x7b
  | shr => 0x7d
  | not => 0x7e
  | xor => 0x5e
  | and => 0x26
  | or => 0x7c
  | other b => b

/-- Reading a byte loses nothing. -/
@[simp] theorem toByte_ofByte (b : UInt8) : (ofByte b).toByte = b := by
  unfold ofByte
  split <;> rfl

/-- The instruction table of an operator. -/
def cls : Operator → OperatorClass
  | inc | dec | right | left | output | input | loop | again => .core
  | halt | store | load | shl | shr | not | xor | and | or => .extended
  | nop | other _ => .none

/-- The word that names an operator; bytes without a meaning have none. -/
def word? : Operator → Option String
  | nop => some "nop"
  | inc => some "inc"
  | dec => some "dec"
  | right => some "right"
  | left => some "left"
  | output => some "output"
  | input => some "input"
  | loop => some "loop"
  | again => some "repeat"
  | halt => some "halt"
  | store => some "store"
  | load => some "load"
  | shl => some "shl"
  | shr => some "shr"
  | not => some "not"
  | xor => some "xor"
  | and => some "and"
  | or => some "or"
  | other _ => none

/-- How an operator is shown: its character and its word, or the byte in hexadecimal.  The
no-operation has no character. -/
def name (op : Operator) : String :=
  match op, op.word? with
  | nop, _ => "nop"
  | _, some word => String.ofList [Char.ofUInt8 op.toByte, ' '] ++ word
  | _, none => String.ofList ('0' :: 'x' :: Text.hexByte op.toByte)

/-- Whether operators of a table are active at an extend level. -/
def active (extend : Int) : OperatorClass → Bool
  | .core => true
  | .extended => 1 ≤ extend
  | _ => false

/-- The operator an instruction byte stands for at an extend level. -/
def decode (extend : Int) (b : UInt8) : Operator :=
  if active extend (ofByte b).cls then ofByte b else nop

/-- Core operators are active at every level. -/
theorem decode_of_core {extend : Int} {b : UInt8} (h : (ofByte b).cls = .core) :
    decode extend b = ofByte b := by
  simp [decode, active, h]

end Operator

end TapeMachine
