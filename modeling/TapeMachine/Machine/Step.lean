import TapeMachine.Channel
import TapeMachine.Machine

/-!
# Ticks

`execute` performs a single operator, and `tick` the operator at the code pointer, after which the code
pointer advances by one.  A taken jump moves the code pointer onto the partner bracket, so the tick that
took it goes on just behind.

Every step gives back the machine and the channel it leaves behind, whether it succeeded or not.  Three
things can come of a step: a value, an error, or an access outside the tape, which is no error of the
machine's and is kept apart from them.
-/

set_option autoImplicit false
namespace TapeMachine

/-- What comes of an operation that works on the tape. -/
inductive Outcome (α : Type) where
  | ok (value : α)
  | error (e : Error)
  /-- A byte outside the tape was asked for. -/
  | offTape
  deriving Repr, BEq, Inhabited

/-- The machine and the channel after a step, and what came of it. -/
structure Step (σ α : Type) where
  machine : Machine
  channel : σ
  outcome : Outcome α

namespace Machine

variable {σ : Type}

/-- Goes on with the value of the cell under the data pointer. -/
@[inline] def onCell (m : Machine) (c : σ) (k : UInt8 → Step σ Unit) : Step σ Unit :=
  match m.cell? with
  | some v => k v
  | none => ⟨m, c, .offTape⟩

/-- Replaces the cell under the data pointer. -/
@[inline] def mapCell (m : Machine) (c : σ) (f : UInt8 → UInt8) : Step σ Unit :=
  m.onCell c fun v => ⟨m.putCell (f v), c, .ok ()⟩

/-- Moves the code pointer onto the partner bracket. -/
def jump (m : Machine) (c : σ) (d : Direction) : Step σ Unit :=
  match m.partner d with
  | .found target => ⟨{ m with ip := target }, c, .ok ()⟩
  | .unmatched _ => ⟨m, c, .error Condition.bracketUnmatched⟩
  | .offTape => ⟨m, c, .offTape⟩

variable [Channel σ]

/-- Sends the cell under the data pointer. -/
def sendCell (m : Machine) (c : σ) : Step σ Unit :=
  m.onCell c fun v =>
    match Channel.send v c with
    | (.ok (), c) => ⟨m, c, .ok ()⟩
    | (.error e, c) => ⟨m, c, .error e⟩

/-- How an input byte is stored: a newline as zero. -/
def stored (b : UInt8) : UInt8 :=
  if b = 0x0a then 0 else b

/-- Receives a byte into the cell under the data pointer. -/
def receiveCell (m : Machine) (c : σ) : Step σ Unit :=
  match Channel.receive c with
  | (.ok b, c) => m.mapCell c fun _ => stored b
  | (.error e, c) => ⟨m, c, .error e⟩

/-- Performs an operator, whatever the extend level. -/
def execute (op : Operator) (m : Machine) (c : σ) : Step σ Unit :=
  match op with
  | .nop => ⟨m, c, .ok ()⟩
  | .inc => m.mapCell c (· + 1)
  | .dec => m.mapCell c (· - 1)
  | .right => ⟨m.changePtr ⟨.add, 1⟩, c, .ok ()⟩
  | .left => ⟨m.changePtr ⟨.sub, 1⟩, c, .ok ()⟩
  | .output => m.sendCell c
  | .input => m.receiveCell c
  | .loop => m.onCell c fun v => if v = 0 then m.jump c .forward else ⟨m, c, .ok ()⟩
  | .again => m.onCell c fun v => if v = 0 then ⟨m, c, .ok ()⟩ else m.jump c .backward
  | .halt => ⟨{ m with halted := true }, c, .ok ()⟩
  | .store => m.onCell c fun v => ⟨m.putStorage v, c, .ok ()⟩
  | .load => let s := m.tape.storage; m.mapCell c fun _ => s
  | .shl => m.mapCell c (· <<< 1)
  | .shr => m.mapCell c (· >>> 1)
  | .not => m.mapCell c (~~~ ·)
  | .xor => let s := m.tape.storage; m.mapCell c (· ^^^ s)
  | .and => let s := m.tape.storage; m.mapCell c (· &&& s)
  | .or => let s := m.tape.storage; m.mapCell c (· ||| s)
  | .other _ => ⟨m, c, .ok ()⟩

/-- Moves on to the next operator, and counts the tick. -/
def advance (m : Machine) : Machine :=
  { m with ip := wrap (m.ip + 1), ticks := m.ticks + 1 }

/-- Executes the operator at the code pointer and moves on.  The value tells whether the machine has
stopped. -/
def tick (m : Machine) (c : σ) : Step σ Bool :=
  if !m.isRunning then ⟨m, c, .ok true⟩
  else if m.atTickLimit then ⟨m, c, .error Condition.tickLimit⟩
  else
    let ip := m.ip
    let op := m.opcode
    match m.execute op c with
    | ⟨m, c, .ok ()⟩ =>
      let m := m.advance
      let stopped := !m.isRunning
      ⟨m, c, .ok stopped⟩
    | ⟨m, c, .error e⟩ => ⟨m, c, .error (.fault ip op e)⟩
    | ⟨m, c, .offTape⟩ => ⟨m, c, .offTape⟩

end Machine

end TapeMachine
