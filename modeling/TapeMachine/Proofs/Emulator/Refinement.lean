import TapeMachine.Emulator
import TapeMachine.Proofs.Machine.Bounds
import TapeMachine.Proofs.Machine.View

/-!
# An emulator does what its machine does

An emulator ticks its machine in a loop of its own, tells every error with the tick and the code position
at which it came up, writes a log, and flushes the console on every way out.  Apart from the log, which
nothing reads, all of this can be said in terms of the machine alone: the run of an emulator is the run of
its machine on its console, followed by one flush (`runFor_eq`).

The one thing that is not bookkeeping is the label of an error.  It is taken before the tick, and what it
is compared with is the machine that the run has left.  The two are the same only because a tick that
fails leaves the machine untouched, ticks and code pointer included (`Machine.tick_error_cases`).
-/

set_option autoImplicit false
namespace TapeMachine

/-- What a run comes to when the flush behind it was answered with `flushed`: the flush is heard only if
the run itself succeeded. -/
def Outcome.after (flushed : Except Error Unit) : Outcome Unit → Outcome Unit
  | .ok () => .ofExcept flushed
  | o => o

namespace Emulator

/-! ## The log is not read -/

theorem exists_record_eq (emu : Emulator) (e : Event) : ∃ log, emu.record e = { emu with log } := by
  rw [record]
  split
  · exact ⟨_, rfl⟩
  · exact ⟨_, rfl⟩

theorem exists_trace_eq (emu : Emulator) (m : Machine) : ∃ log, emu.trace m = { emu with log } := by
  rw [trace]
  split
  · exact emu.exists_record_eq _
  · exact ⟨_, rfl⟩

theorem exists_recordHalt_eq (emu : Emulator) : ∃ log, emu.recordHalt = { emu with log } := by
  rw [recordHalt]
  split
  · exact emu.exists_record_eq _
  · exact ⟨_, rfl⟩

theorem exists_recordStop_eq (emu : Emulator) (e : Error) :
    ∃ log, emu.recordStop e = { emu with log } :=
  emu.exists_record_eq _

/-- After a reset there is a machine as it is built, and a console that counts anew. -/
theorem exists_reset_eq {emu emu₀ : Emulator} (h : emu.reset = (.ok (), emu₀)) :
    ∃ m₀ log, Machine.build emu.setup.program emu.setup.dataLength emu.setup.options = .ok m₀ ∧
      emu₀ = ⟨emu.setup, emu.console.rewind, some m₀, log⟩ := by
  rw [reset] at h
  split at h
  · cases h
  · rename_i m₀ hb
    obtain ⟨log, hlog⟩ := exists_record_eq { emu with console := emu.console.rewind, machine := none }
      (.created emu.setup.options emu.setup.dataLength m₀.tape.code)
    cases h
    exact ⟨m₀, log, hb, by rw [welcome, hlog]⟩

/-! ## Ticks and runs -/

/-- A tick of an emulator is a tick of its machine on its console. -/
theorem exists_tick_eq (setup : Setup) (con : Console) (m : Machine) (log : Array Event) :
    ∃ log', tick ⟨setup, con, some m, log⟩ =
      (⟨setup, (m.tick con).channel, some (m.tick con).machine, log'⟩,
        (m.tick con).outcome.located m.ticks m.ip) := by
  obtain ⟨log', hlog⟩ := exists_trace_eq ⟨setup, con, none, log⟩ m
  exact ⟨log', by rw [tick, tickMachine, hlog]⟩

/-- The end of a run is one flush. -/
theorem close_eq (emu : Emulator) (o : Outcome Unit) :
    emu.close o = ({ emu with console := emu.console.flush.2 }, o.after emu.console.flush.1) := by
  unfold close
  obtain ⟨⟨flushed, con⟩, hf⟩ : ∃ r, emu.console.flush = r := ⟨_, rfl⟩
  rw [hf]
  cases o with
  | ok => cases flushed <;> rfl
  | error e => cases flushed <;> rfl
  | offTape => cases flushed <;> rfl

/-- What the run of a machine becomes by the flush that follows it, and the label of its error. -/
def settle (r : Run Console) : Console × Option (Outcome Unit) :=
  match r.outcome with
  | none => (r.channel, none)
  | some o =>
    (r.channel.flush.2, some ((o.located r.machine.ticks r.machine.ip).after r.channel.flush.1))

/-- **The run of an emulator is the run of its machine**, paused or ended at the same time. -/
theorem runFor_eq (n : Nat) (setup : Setup) (con : Console) (m : Machine) (log : Array Event) :
    ∃ log', runFor n ⟨setup, con, some m, log⟩ =
      (⟨setup, (settle (m.runFor n con)).1, some (m.runFor n con).machine, log'⟩,
        (settle (m.runFor n con)).2) := by
  induction n generalizing con m log with
  | zero => exact ⟨log, rfl⟩
  | succ n ih =>
    obtain ⟨log₁, ht⟩ := exists_tick_eq setup con m log
    obtain ⟨⟨m', con', o⟩, hs⟩ : ∃ s, m.tick con = s := ⟨_, rfl⟩
    rw [runFor, ht, Machine.runFor, hs]
    cases o with
    | ok stopped =>
      cases stopped with
      | false => exact ih con' m' log₁
      | true =>
        obtain ⟨log₂, hlog⟩ := exists_recordHalt_eq ⟨setup, con', some m', log₁⟩
        refine ⟨log₂, ?_⟩
        simp only [Outcome.located, hlog, close_eq, settle]
        rfl
    | error e =>
      -- the label was taken before the tick, but the tick has changed nothing
      obtain ⟨-, rfl, -⟩ := Machine.tick_error_cases hs
      obtain ⟨log₂, hlog⟩ := exists_recordStop_eq ⟨setup, con', some m', log₁⟩
        (.runtime m'.ticks m'.ip e)
      refine ⟨log₂, ?_⟩
      simp only [Outcome.located, hlog, close_eq, settle]
      rfl
    | offTape =>
      refine ⟨log₁, ?_⟩
      simp only [Outcome.located, close_eq, settle]
      rfl

/-! ## Runs that end -/

/-- A run of `emu` comes to an end, with outcome `o`, and leaves `emu'`. -/
def Returns (emu emu' : Emulator) (o : Outcome Unit) : Prop :=
  ∃ n, emu.runFor n = (emu', some o)

/-- What an emulator makes of a run of its machine that left `m` and `con` and came to `o`. -/
structure Settles (m : Machine) (con : Console) (o : Outcome Unit) (emu' : Emulator)
    (o' : Outcome Unit) : Prop where
  machine : emu'.machine = some m
  /-- The console, with its counters and its streams, after one flush. -/
  console : emu'.console = con.flush.2
  /-- If the machine succeeded, the outcome is that of the flush. -/
  ok : o = .ok () → o' = .ofExcept con.flush.1
  /-- If the machine failed, the outcome is its error with a label, whatever the flush did. -/
  error : ∀ e, o = .error e → o' = .error (.runtime m.ticks m.ip e)
  offTape : o = .offTape → o' = .offTape

theorem settles_settle {m : Machine} {con : Console} {o : Outcome Unit} {emu' : Emulator}
    (hmachine : emu'.machine = some m) (hconsole : emu'.console = con.flush.2) :
    Settles m con o emu' ((o.located m.ticks m.ip).after con.flush.1) where
  machine := hmachine
  console := hconsole
  ok := by rintro rfl; rfl
  error := by rintro e rfl; rfl
  offTape := by rintro rfl; rfl

/-- The ends of an emulator's runs are those of its machine's runs. -/
theorem returns_iff_settles (setup : Setup) (con : Console) (m : Machine) (log : Array Event) :
    (∀ emu' o', Returns ⟨setup, con, some m, log⟩ emu' o' →
      ∃ m' con' o, m.Returns con m' con' o ∧ Settles m' con' o emu' o') ∧
    ∀ m' con' o, m.Returns con m' con' o →
      ∃ emu' o', Returns ⟨setup, con, some m, log⟩ emu' o' ∧ Settles m' con' o emu' o' := by
  constructor
  · rintro emu' o' ⟨n, hn⟩
    obtain ⟨log', heq⟩ := runFor_eq n setup con m log
    obtain ⟨⟨m', con', o⟩, hr⟩ : ∃ r, m.runFor n con = r := ⟨_, rfl⟩
    rw [heq, hr] at hn
    cases o with
    | none => cases hn
    | some o =>
      cases hn
      exact ⟨m', con', o, ⟨n, hr⟩, settles_settle rfl rfl⟩
  · rintro m' con' o ⟨n, hn⟩
    obtain ⟨log', heq⟩ := runFor_eq n setup con m log
    rw [hn] at heq
    exact ⟨_, _, ⟨n, heq⟩, settles_settle rfl rfl⟩

end Emulator

open Emulator

/-- **An emulator does what its machine does.**  After a reset that succeeds, a run of the emulator ends
exactly if a run of a machine that was built alike does, on the same console.  It leaves what that run and
one flush after it leave.  It answers with the machine's error, labelled with the ticks and the code
pointer of the machine that is left, or with the answer of the flush if the machine succeeded.  None of
this depends on what is logged.

An error that is a fault names the code pointer that the label names.  And the machine's run does end in a
success or an error, if it ends, on a tape whose length is a word. -/
theorem returns_of_reset {emu emu₀ : Emulator} (hreset : emu.reset = (.ok (), emu₀)) :
    ∃ m₀, Machine.build emu.setup.program emu.setup.dataLength emu.setup.options = .ok m₀ ∧
      emu₀.console = emu.console.rewind ∧
      (∀ emu' o', emu₀.Returns emu' o' →
        ∃ m con o, m₀.Returns emu₀.console m con o ∧ Settles m con o emu' o') ∧
      (∀ m con o, m₀.Returns emu₀.console m con o →
        ∃ emu' o', emu₀.Returns emu' o' ∧ Settles m con o emu' o') ∧
      (∀ m con ip op cause,
        m₀.Returns emu₀.console m con (.error (.fault ip op cause)) → ip = m.ip) ∧
      (IsWord (1 + emu.setup.program.length + emu.setup.dataLength) →
        ∀ m con, ¬m₀.Returns emu₀.console m con .offTape) := by
  obtain ⟨m₀, log, hb, rfl⟩ := exists_reset_eq hreset
  obtain ⟨hends, hends'⟩ := returns_iff_settles emu.setup emu.console.rewind m₀ log
  refine ⟨m₀, hb, rfl, hends, hends', ?_, ?_⟩
  · intro m con ip op cause hret
    exact (Machine.stands_of_returns_fault hret).1.symm
  · intro hsize m con hret
    obtain ⟨-, hd, rfl⟩ := Machine.build_eq_ok_iff.mp hb
    obtain ⟨k, hk⟩ := Machine.exists_ends_iff_returns.mpr hret
    exact (Machine.sound_fresh _ hd hsize _).ends_ne_offTape hk rfl

/-- The program `.[` on a full sink: what it sends waits in a buffer, its bracket fails, and the failure
of the flush is not heard. -/
theorem returns_of_reset_full_sink :
    ∃ (emu emu₀ emu' : Emulator) (m : Machine) (con : Console),
      emu.setup.program = [0x2e, 0x5b] ∧ emu.reset = (.ok (), emu₀) ∧ con.sent = 1 ∧
      con.flush.1 = .error (Console.failure .outputFailed "full") ∧
      emu₀.Returns emu' (.error (.runtime 1 2 (.fault 2 .loop Condition.bracketUnmatched))) ∧
      emu'.machine = some m ∧ emu'.console = con.flush.2 := by
  let output : Output := .buffered { sink := { limit := some 0, error := "full" }, size := 4 }
  let emu : Emulator :=
    { setup := { verbose := true, logger := .recording, program := [0x2e, 0x5b], dataLength := 1 }
      console := { output := some output } }
  have hreset : emu.reset = (.ok (), emu.reset.2) := rfl
  obtain ⟨m₀, hb, -, -, hends, -⟩ := returns_of_reset hreset
  obtain ⟨-, -, rfl⟩ := Machine.build_eq_ok_iff.mp hb
  let run := (Machine.fresh emu.setup.program emu.setup.dataLength emu.setup.options).runFor 2
    emu.reset.2.console
  have hret : (Machine.fresh emu.setup.program emu.setup.dataLength emu.setup.options).Returns
      emu.reset.2.console run.machine run.channel
      (.error (.fault 2 .loop Condition.bracketUnmatched)) := ⟨2, rfl⟩
  obtain ⟨emu', o', hemu, hs⟩ := hends _ _ _ hret
  obtain rfl := hs.error _ rfl
  exact ⟨emu, _, emu', _, _, rfl, hreset, rfl, rfl, hemu, hs.machine, hs.console⟩

end TapeMachine
