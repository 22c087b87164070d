import TapeMachine.Proofs.Channel.Agreement
import TapeMachine.Proofs.Emulator.Session

/-!
# Buffers cannot be seen

An output may write to its sink directly, or collect bytes in a buffer of some size.  As long as the sink
takes every byte, nobody can tell: not the machine, and after a run not even whoever looks at the sink.

The reason is that a buffer is looked at only after a flush.  Two consoles are `Alike` if their outputs
*took* the same bytes, no matter how many of these wait in a buffer.  They then take the next byte alike.
Before they read they flush, after which nothing waits (`Alike.flush`), so that even an input that reads
what was written finds the same bytes (`Alike.receive`).  Hence a machine does the same on both
(`agrees_alike`), and emulators that hold the same machine go on as `Twins`, with the same log, whatever
the order of reads and writes.  And a run, however it ends, ends with a flush (`Twins.runFor`).
-/

set_option autoImplicit false
namespace TapeMachine

/-! ## Outputs that never fail -/

/-- The sink of a buffer takes every byte, and always has. -/
structure Buffer.Willing (b : Buffer) : Prop where
  limit : b.sink.limit = none
  stuck : b.stuck = none

/-- An output that never fails. -/
def Output.Willing : Output → Prop
  | direct s => s.limit = none
  | buffered b => b.Willing
  | unflushable _ _ => False

theorem Sink.write_of_limit {s : Sink} (h : s.limit = none) (bs : List UInt8) :
    s.write bs = (.ok (), { s with bytes := s.bytes ++ bs }) := by
  have haccepts : s.accepts bs.length = true := by rw [accepts, h]
  rw [write, if_pos haccepts]

theorem Buffer.willing_ofSize (size : Int) {sink : Sink} (h : sink.limit = none) :
    (ofSize size sink).Willing :=
  ⟨h, rfl⟩

theorem Buffer.Willing.flush {b : Buffer} (h : b.Willing) :
    ∃ b', b.flush = (.ok (), b') ∧ b'.Willing := by
  obtain ⟨sink, size, pending, stuck⟩ := b
  obtain ⟨hlimit, rfl⟩ : sink.limit = none ∧ stuck = none := ⟨h.limit, h.stuck⟩
  by_cases hp : pending.isEmpty = true
  · exact ⟨_, by simp only [Buffer.flush, if_pos hp], h⟩
  · refine ⟨⟨{ sink with bytes := sink.bytes ++ pending.toList }, size, #[], none⟩, ?_, hlimit, rfl⟩
    simp only [Buffer.flush, if_neg hp, writeThrough, Sink.write_of_limit hlimit]

theorem Buffer.Willing.push {b : Buffer} (h : b.Willing) (byte : UInt8) :
    ∃ b', b.push byte = (.ok (), b') ∧ b'.Willing := by
  by_cases hroom : 0 < b.room
  · refine ⟨{ b with pending := b.pending.push byte }, ?_, h.limit, h.stuck⟩
    simp only [Buffer.push, h.stuck, if_pos hroom]
  · obtain ⟨b', hf, h'⟩ := h.flush
    refine ⟨{ b' with pending := b'.pending.push byte }, ?_, h'.limit, h'.stuck⟩
    simp only [Buffer.push, h.stuck, if_neg hroom, hf]

namespace Output

/-- A willing output takes a byte, and stays willing. -/
theorem Willing.write {out : Output} (h : out.Willing) (byte : UInt8) :
    ∃ out', out.write [byte] = (.ok (), out') ∧ out'.Willing ∧ out'.taken = out.taken ++ [byte] := by
  obtain ⟨out', hw, hwilling⟩ : ∃ out', out.write [byte] = (.ok (), out') ∧ out'.Willing := by
    cases out with
    | direct s =>
      rw [Output.write, Sink.write_of_limit h]
      exact ⟨_, rfl, h⟩
    | buffered b =>
      obtain ⟨b', hp, h'⟩ := Buffer.Willing.push h byte
      rw [Output.write, Buffer.write, hp]
      exact ⟨_, rfl, h'⟩
    | unflushable => exact h.elim
  refine ⟨out', hw, hwilling, ?_⟩
  rcases out.write_cases byte with ⟨out'', hw', ht⟩ | ⟨e, out'', hw', -⟩
  · rw [hw] at hw'
    cases hw'
    exact ht.taken
  · rw [hw] at hw'
    cases hw'

/-- A willing output can be flushed, and stays willing. -/
theorem Willing.flush {out : Output} (h : out.Willing) :
    ∃ out', out.flush = (.ok (), out') ∧ out'.Willing ∧ out'.pending = [] ∧
      out'.taken = out.taken := by
  obtain ⟨out', hf, hwilling⟩ : ∃ out', out.flush = (.ok (), out') ∧ out'.Willing := by
    cases out with
    | direct s => exact ⟨_, rfl, h⟩
    | buffered b =>
      obtain ⟨b', hb, h'⟩ := Buffer.Willing.flush h
      rw [Output.flush, hb]
      exact ⟨_, rfl, h'⟩
    | unflushable => exact h.elim
  refine ⟨out', hf, hwilling, ?_⟩
  rcases out.flush_cases with ⟨out'', hf', hp, ht⟩ | ⟨e, out'', hf', -⟩
  · rw [hf] at hf'
    cases hf'
    exact ⟨hp, ht.taken.trans (List.append_nil _)⟩
  · rw [hf] at hf'
    cases hf'

/-- Where nothing waits, all that was taken is in the sink. -/
theorem taken_of_pending {out : Output} (h : out.pending = []) : out.taken = out.sink.bytes.toList := by
  rw [taken, h, List.append_nil]

end Output

/-! ## Consoles -/

namespace Console

/-- Consoles with the same input and the same counters, and with outputs that never fail and took the same
bytes. -/
inductive Alike : Console → Console → Prop
  | mk {out out' : Output} (input : Option Input) (received sent : Nat) (h : out.Willing)
      (h' : out'.Willing) (htaken : out.taken = out'.taken) :
      Alike ⟨input, some out, received, sent⟩ ⟨input, some out', received, sent⟩

theorem Alike.counters {con con' : Console} (h : Alike con con') :
    con.sent = con'.sent ∧ con.received = con'.received := by
  cases h
  exact ⟨rfl, rfl⟩

theorem Alike.rewind {con con' : Console} (h : Alike con con') : Alike con.rewind con'.rewind := by
  cases h with
  | mk input received sent h h' htaken => exact ⟨input, 0, 0, h, h', htaken⟩

/-- **After a flush the sinks hold the same.** -/
theorem Alike.flush {con con' : Console} (h : Alike con con') :
    con.flush.1 = .ok () ∧ con'.flush.1 = .ok () ∧ Alike con.flush.2 con'.flush.2 ∧
      con.flush.2.written = con'.flush.2.written ∧
      con.flush.2.written.toList = con.flush.2.taken := by
  cases h with
  | @mk out out' input received sent h h' htaken =>
    obtain ⟨o, hf, hw, hp, ht⟩ := h.flush
    obtain ⟨o', hf', hw', hp', ht'⟩ := h'.flush
    have htaken₁ : o.taken = o'.taken := by rw [ht, ht', htaken]
    have hsink : o.sink.bytes = o'.sink.bytes := by
      rw [Output.taken_of_pending hp, Output.taken_of_pending hp'] at htaken₁
      exact Array.toList_inj.mp htaken₁
    simp only [Console.flush, hf, hf']
    exact ⟨trivial, trivial, ⟨input, received, sent, hw, hw', htaken₁⟩, hsink,
      (Output.taken_of_pending hp).symm⟩

/-- Consoles that are alike and hold the same written bytes read the same byte. -/
theorem Alike.read {con con' : Console} (h : Alike con con') (hwritten : con.written = con'.written) :
    con.read.1 = con'.read.1 ∧ Alike con.read.2 con'.read.2 := by
  cases h with
  | @mk out out' input received sent h h' htaken =>
    cases input with
    | none => exact ⟨rfl, none, received, sent, h, h', htaken⟩
    | some input =>
      simp only [Console.read, hwritten]
      split
      · exact ⟨rfl, _, _, _, h, h', htaken⟩
      · exact ⟨rfl, _, _, _, h, h', htaken⟩

theorem Alike.receive {con con' : Console} (h : Alike con con') :
    con.receive.1 = con'.receive.1 ∧ Alike con.receive.2 con'.receive.2 := by
  obtain ⟨hok, hok', halike, hwritten, -⟩ := h.flush
  have hreceive : ∀ {con : Console}, con.flush.1 = .ok () → con.receive = con.flush.2.read := by
    intro con hok
    rw [Console.receive, show con.flush = (.ok (), con.flush.2) by rw [← hok]]
  rw [hreceive hok, hreceive hok']
  exact halike.read hwritten

theorem Alike.send {con con' : Console} (h : Alike con con') (byte : UInt8) :
    (con.send byte).1 = (con'.send byte).1 ∧ Alike (con.send byte).2 (con'.send byte).2 := by
  cases h with
  | @mk out out' input received sent h h' htaken =>
    obtain ⟨o, hs, hw, ht⟩ := h.write byte
    obtain ⟨o', hs', hw', ht'⟩ := h'.write byte
    simp only [Console.send, hs, hs']
    exact ⟨trivial, input, received, sent + 1, hw, hw', by rw [ht, ht', htaken]⟩

/-- **A machine cannot tell consoles that are alike.** -/
theorem agrees_alike : Channel.Agrees Alike :=
  ⟨Alike.receive, fun byte _ _ h ↦ h.send byte⟩

end Console

/-! ## Emulators -/

namespace Emulator

open Machine

/-- Emulators that differ at most in their outputs, and there only as `Alike` allows. -/
structure Twins (emu emu' : Emulator) : Prop where
  setup : emu.setup = emu'.setup
  machine : emu.machine = emu'.machine
  log : emu.log = emu'.log
  console : emu.console.Alike emu'.console

theorem tickMachine_eq (m : Machine) (emu : Emulator) :
    tickMachine m emu =
      (⟨(emu.trace m).setup, (m.tick (emu.trace m).console).channel,
          some (m.tick (emu.trace m).console).machine, (emu.trace m).log⟩,
        (m.tick (emu.trace m).console).outcome.located m.ticks m.ip) :=
  rfl

/-- Runs that leave twins and come to the same.  When they have ended, the sinks hold the same bytes, and
all that the outputs took. -/
structure RunAlike (r r' : Emulator × Option (Outcome Unit)) : Prop where
  twins : Twins r.1 r'.1
  outcome : r.2 = r'.2
  written : r.2.isSome → r.1.console.written = r'.1.console.written ∧
    r.1.console.written.toList = r.1.console.taken

namespace Twins

variable {emu emu' : Emulator}

theorem record (h : Twins emu emu') (e : Event) : Twins (emu.record e) (emu'.record e) := by
  rw [Emulator.record, Emulator.record, h.setup]
  split
  · exact ⟨rfl, h.machine, congrArg (·.push e) h.log, h.console⟩
  · exact h

theorem trace (h : Twins emu emu') (m : Machine) : Twins (emu.trace m) (emu'.trace m) := by
  rw [Emulator.trace, Emulator.trace, h.setup]
  split
  · exact h.record _
  · exact h

theorem recordHalt (h : Twins emu emu') : Twins emu.recordHalt emu'.recordHalt := by
  obtain ⟨hsent, hreceived⟩ := h.console.counters
  rw [Emulator.recordHalt, Emulator.recordHalt, h.machine, hsent, hreceived]
  split
  · exact h.record _
  · exact h

theorem welcome (h : Twins emu emu') (m : Machine) : Twins (emu.welcome m) (emu'.welcome m) := by
  have hrewound : Twins { emu with console := emu.console.rewind, machine := none }
      { emu' with console := emu'.console.rewind, machine := none } :=
    ⟨h.setup, rfl, h.log, h.console.rewind⟩
  have hevent : Event.created emu.setup.options emu.setup.dataLength m.tape.code =
      .created emu'.setup.options emu'.setup.dataLength m.tape.code := by rw [h.setup]
  rw [Emulator.welcome, hevent]
  exact hrewound.record _

theorem buildMachine (h : Twins emu emu') : emu.buildMachine = emu'.buildMachine := by
  rw [Emulator.buildMachine, Emulator.buildMachine, h.setup]

/-- Twins are reset alike. -/
theorem reset (h : Twins emu emu') :
    emu.reset.1 = emu'.reset.1 ∧ Twins emu.reset.2 emu'.reset.2 := by
  rw [Emulator.reset, Emulator.reset, h.buildMachine]
  split
  · exact ⟨rfl, h⟩
  · rename_i m _
    have hw := h.welcome m
    exact ⟨rfl, hw.setup, rfl, hw.log, hw.console⟩

/-- **Twins tick alike.** -/
theorem tickMachine (h : Twins emu emu') (m : Machine) :
    Twins (tickMachine m emu).1 (tickMachine m emu').1 ∧
      (tickMachine m emu).2 = (tickMachine m emu').2 := by
  have ht := h.trace m
  obtain ⟨hmachine, hchannel, houtcome⟩ := m.agree_tick Console.agrees_alike ht.console
  rw [tickMachine_eq, tickMachine_eq]
  exact ⟨⟨ht.setup, congrArg some hmachine, ht.log, hchannel⟩,
    congrArg (Outcome.located m.ticks m.ip) houtcome⟩

theorem tick (h : Twins emu emu') : Twins emu.tick.1 emu'.tick.1 ∧ emu.tick.2 = emu'.tick.2 := by
  have hbuild := h.buildMachine
  obtain ⟨setup, con, machine, log⟩ := emu
  obtain ⟨setup', con', machine', log'⟩ := emu'
  obtain rfl : machine = machine' := h.machine
  cases machine with
  | some m =>
    have hidle : Twins ⟨setup, con, none, log⟩ ⟨setup', con', none, log'⟩ :=
      ⟨h.setup, rfl, h.log, h.console⟩
    exact hidle.tickMachine m
  | none =>
    rw [Emulator.tick, Emulator.tick, hbuild]
    split
    · exact ⟨h, rfl⟩
    · exact (h.welcome _).tickMachine _

/-- **Twins end a run alike**, with the same bytes in their sinks. -/
theorem close (h : Twins emu emu') (o : Outcome Unit) :
    RunAlike ((emu.close o).map id some) ((emu'.close o).map id some) := by
  obtain ⟨hok, hok', halike, hwritten, htaken⟩ := h.console.flush
  rw [close_eq, close_eq, hok, hok']
  exact ⟨⟨h.setup, h.machine, h.log, halike⟩, rfl, fun _ ↦ ⟨hwritten, htaken⟩⟩

/-- **Twins run alike.** -/
theorem runFor (h : Twins emu emu') (n : Nat) : RunAlike (emu.runFor n) (emu'.runFor n) := by
  induction n generalizing emu emu' with
  | zero => exact ⟨h, rfl, nofun⟩
  | succ n ih =>
    obtain ⟨htwins, houtcome⟩ := h.tick
    rw [Emulator.runFor, Emulator.runFor]
    generalize emu.tick = t at htwins houtcome
    generalize emu'.tick = t' at htwins houtcome
    obtain ⟨emu₁, o⟩ := t
    obtain ⟨emu₁', o'⟩ := t'
    obtain rfl : o = o' := houtcome
    rcases o with (_ | _) | e | _
    · exact ih htwins
    · exact htwins.recordHalt.close (.ok ())
    · exact (htwins.record _).close (.error e)
    · exact htwins.close .offTape

end Twins

/-- After a reset that succeeds, a run has passed on what its machine has sent and received. -/
theorem carries_of_build (emu : Emulator) {m₀ : Machine} (hb : emu.buildMachine = .ok m₀) (n : Nat) :
    Carries (m₀.deeds n emu.reset.2.console) emu.console.rewind
      (emu.reset.2.runFor n).1.console := by
  have hplaced := (Attended.accounts_build hb emu.console).placed
  have hreset : emu.reset = (.ok (), emu.reset.2) := by rw [reset, hb]
  obtain ⟨m₁, log, hb₁, heq⟩ := exists_reset_eq hreset
  obtain rfl : m₀ = m₁ := Except.ok.inj (hb.symm.trans hb₁)
  obtain ⟨log', hrun⟩ := runFor_eq n emu.setup emu.console.rewind m₀ log
  rw [heq, hrun]
  exact carries_settle hplaced n emu.console.rewind

end Emulator

open Machine Emulator

/-- **Buffers cannot be seen.**  Take an emulator with whatever input, and a sink that takes every byte.
Reset it and run it with an output that writes to the sink directly, and with one that writes to it through
an empty buffer of whatever size.  Both resets give the same answer.  At any time both runs have come to
the same: they are still going on, or they have ended with the same outcome, with the same machine, counters
and log.

When they have ended, in a success, a fault or at the tick limit, both sinks hold the same bytes.  If the
reset has succeeded, these are the bytes that the sink held before and the cells that were sent since, in
order. -/
theorem runFor_buffered (emu : Emulator) (input : Option Input) {sink : Sink}
    (hsink : sink.limit = none) (size : Int) :
    let direct := (Action.attach input (some (.direct sink))).perform emu
    let buffered := (Action.attach input (some (.buffered (.ofSize size sink)))).perform emu
    direct.reset.1 = buffered.reset.1 ∧
    ∀ n, (direct.reset.2.runFor n).2 = (buffered.reset.2.runFor n).2 ∧
      (direct.reset.2.runFor n).1.machine = (buffered.reset.2.runFor n).1.machine ∧
      (direct.reset.2.runFor n).1.console.sent = (buffered.reset.2.runFor n).1.console.sent ∧
      (direct.reset.2.runFor n).1.console.received =
        (buffered.reset.2.runFor n).1.console.received ∧
      (direct.reset.2.runFor n).1.log = (buffered.reset.2.runFor n).1.log ∧
      ((direct.reset.2.runFor n).2.isSome →
        (direct.reset.2.runFor n).1.console.written =
          (buffered.reset.2.runFor n).1.console.written ∧
        ∀ m₀, build emu.setup.program emu.setup.dataLength emu.setup.options = .ok m₀ →
          (direct.reset.2.runFor n).1.console.written.toList =
            sink.bytes.toList ++ Deed.sent (m₀.deeds n direct.reset.2.console)) := by
  intro direct buffered
  have htwins : Twins direct buffered :=
    ⟨rfl, rfl, rfl, input, _, _, hsink, Buffer.willing_ofSize size hsink, rfl⟩
  obtain ⟨hreset, htwins₀⟩ := htwins.reset
  refine ⟨hreset, fun n ↦ ?_⟩
  obtain ⟨htwinsₙ, houtcome, hend⟩ := htwins₀.runFor n
  obtain ⟨hsent, hreceived⟩ := htwinsₙ.console.counters
  refine ⟨houtcome, htwinsₙ.machine, hsent, hreceived, htwinsₙ.log, fun hsome ↦ ?_⟩
  obtain ⟨hwritten, htaken⟩ := hend hsome
  refine ⟨hwritten, fun m₀ hb ↦ ?_⟩
  obtain ⟨got, hpasses, -⟩ := carries_of_build direct hb n
  have hbefore : direct.console.rewind.taken = sink.bytes.toList := Output.taken_of_pending rfl
  rw [htaken, hpasses.taken, hbefore]

/-- The program `+.-[`, whose bracket fails while the one byte it has sent waits in a buffer with room for
four. -/
theorem runFor_buffered_part_full :
    ∃ direct buffered : Emulator,
      direct.console.output = some (.direct {}) ∧
      buffered.console.output = some (.buffered (.ofSize 4 {})) ∧
      (buffered.reset.2.runFor 3).1.console.written = #[] ∧
      (buffered.reset.2.runFor 4).2 =
        some (.error (.runtime 3 4 (.fault 4 .loop Condition.bracketUnmatched))) ∧
      (direct.reset.2.runFor 4).2 = (buffered.reset.2.runFor 4).2 ∧
      (direct.reset.2.runFor 4).1.console.written = (buffered.reset.2.runFor 4).1.console.written ∧
      (direct.reset.2.runFor 4).1.console.written.toList = [1] := by
  have hsink : ({} : Sink).limit = none := rfl
  obtain ⟨-, hrun⟩ := runFor_buffered
    { setup := { program := [0x2b, 0x2e, 0x2d, 0x5b], dataLength := 1 } } none hsink 4
  obtain ⟨houtcome, -, -, -, -, hend⟩ := hrun 4
  obtain ⟨hwritten, -⟩ := hend rfl
  exact ⟨_, _, rfl, rfl, rfl, rfl, houtcome, hwritten, rfl⟩

end TapeMachine
