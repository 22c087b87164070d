import TapeMachine.Console
import TapeMachine.Event
import TapeMachine.Machine.Run

/-!
# The emulator

An emulator runs one program at a time.  It holds what a machine is built from, the console the machine
speaks to, and a log.  `reset` builds a fresh machine and starts the counters of the console anew; the first
tick does so by itself if nobody did.

Errors of a tick are told with the tick and the code position at which they came up.  A run ends with one
closing event and a flush of the console, on every way out.
-/

set_option autoImplicit false
namespace TapeMachine

/-- What becomes of log events. -/
inductive Logger where
  | absent
  | silent
  | recording
  deriving DecidableEq, Repr

/-- What a machine is built from, and how it is watched. -/
structure Setup where
  verbose : Bool := false
  logger : Logger := .silent
  program : List UInt8 := []
  dataLength : Int := 1000
  options : Options := {}
  deriving DecidableEq, Repr

/-- An emulator; there is a machine once it was reset. -/
structure Emulator where
  setup : Setup := {}
  console : Console := {}
  machine : Option Machine := none
  log : Array Event := #[]

/-- Tells at which tick and code position an error came up. -/
def Outcome.located {α : Type} (tick : Nat) (ip : Int) : Outcome α → Outcome α
  | .error e => .error (.runtime tick ip e)
  | outcome => outcome

namespace Emulator

/-- Adds an event to the log, if events are recorded. -/
def record (emu : Emulator) (e : Event) : Emulator :=
  if emu.setup.logger = .recording then { emu with log := emu.log.push e } else emu

/-- The log so far, and the emulator with an empty one. -/
def takeLog (emu : Emulator) : Array Event × Emulator :=
  (emu.log, { emu with log := #[] })

/-- A fresh machine for the current setup. -/
def buildMachine (emu : Emulator) : Except Error Machine :=
  Machine.build emu.setup.program emu.setup.dataLength emu.setup.options

/-- Makes room for a machine that was just built. -/
def welcome (emu : Emulator) (m : Machine) : Emulator :=
  record { emu with console := emu.console.rewind, machine := none }
    (.created emu.setup.options emu.setup.dataLength m.tape.code)

/-- Replaces the machine by a fresh one.  If none can be built, nothing changes. -/
def reset (emu : Emulator) : Except Error Unit × Emulator :=
  match emu.buildMachine with
  | .error e => (.error e, emu)
  | .ok m => (.ok (), { emu.welcome m with machine := some m })

/-- The event that shows a machine before a tick. -/
def tickEvent (m : Machine) : Event :=
  .tick m.ip (m.tape.region m.ip) m.opcode m.ptrIndex (m.cell?.getD 0)

/-- Records a coming tick, if the emulator is verbose. -/
def trace (emu : Emulator) (m : Machine) : Emulator :=
  if emu.setup.verbose && m.isRunning then emu.record (tickEvent m) else emu

/-- Ticks a machine on behalf of the emulator, and keeps what is left of it. -/
def tickMachine (m : Machine) (emu : Emulator) : Emulator × Outcome Bool :=
  let tick := m.ticks
  let ip := m.ip
  match emu.trace m with
  | ⟨setup, console, _, log⟩ =>
    match m.tick console with
    | ⟨m, console, outcome⟩ => (⟨setup, console, some m, log⟩, outcome.located tick ip)

/-- Performs a single tick of the machine, which is built first if there is none. -/
def tick : Emulator → Emulator × Outcome Bool
  | ⟨setup, console, some m, log⟩ => tickMachine m ⟨setup, console, none, log⟩
  | ⟨setup, console, none, log⟩ =>
    let emu : Emulator := ⟨setup, console, none, log⟩
    match emu.buildMachine with
    | .error e => (emu, .error e)
    | .ok m => tickMachine m (emu.welcome m)

/-- Ends a run: the console is flushed, and its error counts if the run had none. -/
def close (emu : Emulator) (outcome : Outcome Unit) : Emulator × Outcome Unit :=
  match emu.console.flush, outcome with
  | (.error e, console), .ok () => ({ emu with console }, .error e)
  | (_, console), outcome => ({ emu with console }, outcome)

/-- Records that the machine stopped by itself. -/
def recordHalt (emu : Emulator) : Emulator :=
  match emu.machine with
  | some m => emu.record (.halted m.halted m.ticks emu.console.sent emu.console.received)
  | none => emu

/-- Records that the machine was stopped by an error. -/
def recordStop (emu : Emulator) (e : Error) : Emulator :=
  emu.record (if e.isFault then .fault e else .aborted e)

/-- Runs for at most `n` ticks.  There is no outcome while the run is merely paused. -/
def runFor : Nat → Emulator → Emulator × Option (Outcome Unit)
  | 0, emu => (emu, none)
  | n + 1, emu =>
    match emu.tick with
    | (emu, .ok true) => (emu.recordHalt.close (.ok ())).map id some
    | (emu, .ok false) => runFor n emu
    | (emu, .error e) => ((emu.recordStop e).close (.error e)).map id some
    | (emu, .offTape) => (emu.close .offTape).map id some

end Emulator

end TapeMachine
