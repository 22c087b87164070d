import TapeMachine.Bundled
import TapeMachine.Proofs.Dump.Rendering
import TapeMachine.Proofs.Emulator.Buffering
import TapeMachine.Proofs.Settings.Layers

/-!
# What the command leaves on the standard output

The output of a program goes through a buffer, and the dump of the memory goes past it, to the same place.
That the dump comes last, and after all that was sent, is due to the flush at the end of every run.

* Settings that pass their check are ones a machine can be built from (`validate_eq_none_iff`).  So an
  invocation that is `Ready` starts, and what it starts is an emulator that was reset (`start_eq`).
* A run of this emulator is a run of its machine on a console without a buffer (`Ready.runFor_eq`).  When
  it has ended, in whatever way, the cells that were sent have arrived.
* The end of a session adds the dump (`exists_stdout_finish`), and tells by the exit status how the run has
  ended.
-/

set_option autoImplicit false
namespace TapeMachine

/-- What has succeeded is not relabelled. -/
theorem Except.mapError_ok {ε ε' α : Type} (f : ε → ε') (a : α) :
    (Except.ok a : Except ε α).mapError f = .ok a :=
  rfl

/-! ## Settings that pass -/

theorem Settings.validate_eq_none_iff {s : Settings} :
    s.validate = none ↔ 0 < s.dataLength ∧ 0 ≤ s.extend ∧ 0 ≤ s.tickLimit ∧ s.color ∈ colorModes := by
  have hcheck : ∀ {p : Prop} [Decidable p] {c : Condition},
      (if p then [Error.condition c] else []) = [] ↔ ¬p := by
    intro p _ c
    split
    · exact ⟨nofun, fun h ↦ absurd ‹p› h⟩
    · exact ⟨fun _ ↦ ‹¬p›, fun _ ↦ rfl⟩
  have hcolor : (if colorModes.contains s.color then [] else [Error.condition .colorUnknown]) = [] ↔
      s.color ∈ colorModes := by
    rw [← List.contains_iff_mem]
    split
    · exact ⟨fun _ ↦ ‹_›, fun _ ↦ rfl⟩
    · exact ⟨nofun, fun h ↦ absurd h ‹_›⟩
  rw [validate, Error.join?_eq_none_iff, problems, List.append_eq_nil_iff, List.append_eq_nil_iff,
    List.append_eq_nil_iff, hcheck, hcheck, hcheck, hcolor, Int.not_le, Int.not_lt, Int.not_lt, and_assoc,
    and_assoc]

/-! ## Invocations that start -/

/-- An invocation that has all it needs: settings that pass, a program, and an input.  What the program sends
goes to the standard output. -/
structure Invocation.Ready (libs : Libraries) (inv : Invocation) (w : Surroundings) (s : Settings)
    (p : Program) (input : Input) : Prop where
  operands : inv.operands.length ≤ 1
  settings : inv.settings libs w = .ok s
  program : inv.loadProgram libs w = .ok p
  input : inv.openInput w = .ok input
  output : inv.output = standardStream

/-- The session of a program whose output goes to the standard output. -/
def Session.toStdout (w : Surroundings) (s : Settings) (p : Program) (input : Input) : Session where
  settings := s
  colored := Dump.colorFor s.color w.terminal (colorsUnwanted w.environment)
  outputFile := none
  files := w.files
  emulator := (emulatorOf s p input).reset.2

namespace Invocation.Ready

variable {libs : Libraries} {inv : Invocation} {w : Surroundings} {s : Settings} {p : Program}
  {input : Input}

theorem validate (h : inv.Ready libs w s p input) : s.validate = none := by
  obtain ⟨s', -, hs⟩ := Except.exists_of_bind_eq_ok h.settings
  split at hs
  · cases hs
    assumption
  · cases hs

/-- The machine can be built. -/
theorem build (h : inv.Ready libs w s p input) :
    Machine.build p.text s.dataLength s.options = .ok (Machine.fresh p.text s.dataLength s.options) := by
  obtain ⟨hdata, hextend, -, -⟩ := Settings.validate_eq_none_iff.mp h.validate
  exact Machine.build_eq_ok_iff.mpr ⟨hextend, by omega, rfl⟩

theorem reset (h : inv.Ready libs w s p input) :
    (Session.emulatorOf s p input).reset = (.ok (), (Session.emulatorOf s p input).reset.2) := by
  have hbuild : (Session.emulatorOf s p input).buildMachine = _ := h.build
  rw [Emulator.reset, hbuild]

/-- No file takes the output, so the input is what it was when it was opened first. -/
theorem ofProgram_eq (h : inv.Ready libs w s p input) :
    Session.ofProgram inv w s p = .ok (.toStdout w s p input) := by
  have hplain : inv.readsOutput w.files none = false := by
    rw [readsOutput]
    exact fun _ _ _ _ ↦ nofun
  simp only [Session.ofProgram, h.input, openOutput, if_pos h.output, Except.mapError_ok, bind, Except.bind,
    hplain, Bool.false_eq_true, if_false]
  rw [h.reset]
  rfl

/-- **The command starts.** -/
theorem start_eq (h : inv.Ready libs w s p input) {arguments : List String}
    (hread : Invocation.read arguments = .ok inv) :
    Command.start libs arguments w = .ok (.toStdout w s p input) := by
  have hoperands := h.operands
  rw [Command.start, hread]
  simp only [Except.mapError_ok, bind, Except.bind, h.settings, h.program]
  rw [if_neg (by omega)]
  exact h.ofProgram_eq

end Invocation.Ready

/-! ## Runs without a buffer -/

/-- A console that has passed on nothing yet, and writes at once what it is sent. -/
def Console.direct (input : Input) : Console :=
  { input := some input, output := some (.direct {}) }

theorem Outcome.after_ok (o : Outcome Unit) : o.after (.ok ()) = o := by
  cases o <;> rfl

open Machine Emulator

/-- A flush behind a run on such a console succeeds, so that only the label is added to the outcome. -/
theorem Emulator.settle_direct (m : Machine) (n : Nat) (input : Input) :
    let run := m.runFor n (Console.direct input)
    (settle run).2 = run.outcome.map (·.located run.machine.ticks run.machine.ip) := by
  intro run
  have hstart : (Console.direct input).Alike (Console.direct input) :=
    ⟨some input, 0, 0, rfl, rfl, rfl⟩
  have hagree := agree_runFor Console.agrees_alike n m hstart
  obtain ⟨hflush, -⟩ := hagree.channel.flush
  rw [settle]
  split
  · rename_i hrun
    rw [hrun, Option.map_none]
  · rename_i o hrun
    rw [hrun, Option.map_some, show run.channel.flush.1 = .ok () from hflush, Outcome.after_ok]

/-- The emulator of a session, with no buffer between it and the sink. -/
def Session.unbuffered (s : Settings) (p : Program) (input : Input) : Emulator :=
  { emulatorOf s p input with console := .direct input }

theorem Session.twins_unbuffered (s : Settings) (p : Program) (input : Input) :
    Twins (unbuffered s p input) (emulatorOf s p input) :=
  ⟨rfl, rfl, rfl, some input, 0, 0, rfl, Buffer.willing_ofSize _ rfl, rfl⟩

/-- **The run of the emulator is that of its machine** on a console without a buffer.  They end at the same
time and leave the same machine, and their errors differ by the label only.  When they have ended, what was
sent has arrived. -/
theorem Invocation.Ready.runFor_eq {libs : Libraries} {inv : Invocation} {w : Surroundings} {s : Settings}
    {p : Program} {input : Input} (h : inv.Ready libs w s p input) (n : Nat) :
    let m₀ := fresh p.text s.dataLength s.options
    let run := m₀.runFor n (Console.direct input)
    ∃ emu, (Session.emulatorOf s p input).reset.2.runFor n =
        (emu, run.outcome.map (·.located run.machine.ticks run.machine.ip)) ∧
      emu.machine = some run.machine ∧
      (run.outcome.isSome → emu.console.written.toList = Deed.sent (m₀.deeds n (Console.direct input))) := by
  intro m₀ run
  let unbuffered := Session.unbuffered s p input
  have hbuild : unbuffered.buildMachine = .ok m₀ := h.build
  have hreset : unbuffered.reset = (.ok (), unbuffered.reset.2) := by
    rw [Emulator.reset, hbuild]
  obtain ⟨m₁, log, hbuild₁, hemu⟩ := exists_reset_eq hreset
  obtain rfl : m₀ = m₁ := Except.ok.inj (hbuild.symm.trans hbuild₁)
  obtain ⟨log', hrun⟩ := Emulator.runFor_eq n unbuffered.setup (Console.direct input) m₀ log
  have hsettle : (unbuffered.reset.2.runFor n).2 =
      run.outcome.map (·.located run.machine.ticks run.machine.ip) := by
    rw [hemu]
    exact (congrArg Prod.snd hrun).trans (settle_direct m₀ n input)
  obtain ⟨got, hpasses, -⟩ := carries_of_build unbuffered hbuild n
  obtain ⟨-, htwins⟩ := (Session.twins_unbuffered s p input).reset
  obtain ⟨htwins, houtcome, hend⟩ := htwins.runFor n
  refine ⟨_, Prod.ext rfl (houtcome.symm.trans hsettle), ?_, fun hsome ↦ ?_⟩
  · rw [← htwins.machine, hemu]
    exact congrArg (·.1.machine) hrun
  · obtain ⟨hwritten, htaken⟩ := hend (by rw [hsettle, Option.isSome_map]; exact hsome)
    rw [← hwritten, htaken, hpasses.taken, hemu]
    rfl

/-! ## The end of a session -/

namespace Session

/-- The label of an error makes no difference to the exit status. -/
theorem exit_finish (session : Session) (tick : Nat) (ip : Int) (o : Outcome Unit) :
    (session.finish (o.located tick ip)).exit = exitOf o := by
  cases o <;> rfl

theorem exitOf_eq_zero_iff {o : Outcome Unit} : exitOf o = 0 ↔ o = .ok () := by
  cases o <;> simp [exitOf]

theorem exitOf_eq_one_iff {o : Outcome Unit} : exitOf o = 1 ↔ ∃ e, o = .error e := by
  cases o <;> simp [exitOf]

/-- On the standard output, what was written is followed by nothing, or by a line end and the dump. -/
theorem exists_stdout_finish (session : Session) (hfile : session.outputFile = none) {m : Machine}
    (hm : session.emulator.machine = some m) (o : Outcome Unit) :
    ∃ dump, Dump.render? session.colored m.snapshot (.direct {}) = some (.ok (), .direct dump) ∧
      (session.finish o).stdout = session.emulator.console.written.toList ++
        if session.settings.dump then 0x0a :: dump.bytes.toList else [] := by
  have hstdout : session.stdout = session.emulator.console.written.toList := by
    rw [stdout, hfile, Option.isNone_none, if_pos rfl, written, Console.written]
    cases session.emulator.console.output <;> rfl
  obtain ⟨text, htext, hrender⟩ := Dump.exists_render? session.colored m.tape m.ptr
  obtain ⟨dump, hdump, hbytes⟩ := hrender {} rfl
  refine ⟨dump, hdump, ?_⟩
  rw [finish, hstdout, Session.dump, hm]
  simp only [snapshot, htext, Option.getD_some]
  split
  · rw [Text.encode_append, hbytes]
    rfl
  · rfl

end Session

/-- The command runs as its machine does.  When that is done, the session is finished. -/
theorem Invocation.Ready.exists_finish {libs : Libraries} {inv : Invocation} {w : Surroundings}
    {s : Settings} {p : Program} {input : Input} (h : inv.Ready libs w s p input) {arguments : List String}
    (hread : Invocation.read arguments = .ok inv) (n : Nat) :
    let m₀ := fresh p.text s.dataLength s.options
    let run := m₀.runFor n (Console.direct input)
    ∃ emu, Command.runFor libs n arguments w = run.outcome.map (fun o ↦
        { Session.toStdout w s p input with emulator := emu }.finish
          (o.located run.machine.ticks run.machine.ip)) ∧
      emu.machine = some run.machine ∧
      (run.outcome.isSome → emu.console.written.toList = Deed.sent (m₀.deeds n (Console.direct input))) := by
  intro m₀ run
  obtain ⟨emu, hrun, hmachine, hwritten⟩ := h.runFor_eq n
  refine ⟨emu, ?_, hmachine, hwritten⟩
  rw [Command.runFor, h.start_eq hread]
  simp only [Session.runFor, Session.toStdout, hrun]
  cases run.outcome <;> rfl

/-- **What the command leaves on the standard output.**  Take any invocation that is ready, with the standard
output for its output and no color for its dump, and compare it with the run of its machine on a console
without a buffer.  Scripts and settings files may be read by any libraries.  The command is done when that run
has ended, be it in a success, by a fault or at the tick limit.

Then the standard output holds the cells that were sent, in order.  If the settings ask for a dump, a line
end and the dump of the machine that is left follow, and nothing else does.  The exit status is 0 if the run
has ended in a success, and 1 if it has ended in an error; on a tape whose length is a word there is no third
way for it to end. -/
theorem runFor_stdout {libs : Libraries} {arguments : List String} {inv : Invocation} {w : Surroundings}
    {s : Settings} {p : Program} {input : Input} (hread : Invocation.read arguments = .ok inv)
    (h : inv.Ready libs w s p input)
    (hcolor : Dump.colorFor s.color w.terminal (Session.colorsUnwanted w.environment) = false) :
    let m₀ := fresh p.text s.dataLength s.options
    let con₀ := Console.direct input
    (∀ n, (m₀.runFor n con₀).outcome = none → Command.runFor libs n arguments w = none) ∧
    ∀ n m con o, m₀.runFor n con₀ = ⟨m, con, some o⟩ →
      ∃ report dump, Command.runFor libs n arguments w = some report ∧
        Dump.render? false m.snapshot (.direct {}) = some (.ok (), .direct dump) ∧
        report.stdout =
          Deed.sent (m₀.deeds n con₀) ++ (if s.dump then 0x0a :: dump.bytes.toList else []) ∧
        (report.exit = 0 ↔ o = .ok ()) ∧ (report.exit = 1 ↔ ∃ e, o = .error e) ∧
        (IsWord (1 + p.text.length + s.dataLength) → o ≠ .offTape) := by
  intro m₀ con₀
  refine ⟨fun n hn ↦ ?_, fun n m con o hn ↦ ?_⟩
  · obtain ⟨emu, hrun, -, -⟩ := h.exists_finish hread n
    rw [hrun]
    exact congrArg (Option.map _) hn
  · obtain ⟨emu, hrun, hmachine, hwritten⟩ := h.exists_finish hread n
    rw [show Machine.runFor n _ (Console.direct input) = _ from hn] at hrun hmachine hwritten
    let session := { Session.toStdout w s p input with emulator := emu }
    obtain ⟨dump, hrender, hstdout⟩ := session.exists_stdout_finish rfl hmachine (o.located m.ticks m.ip)
    have hexit := session.exit_finish m.ticks m.ip o
    rw [show session.colored = false from hcolor] at hrender
    rw [show session.emulator.console.written.toList = _ from hwritten rfl] at hstdout
    refine ⟨_, dump, hrun, hrender, hstdout, ?_, ?_, fun hsize ↦ ?_⟩
    · exact (congrArg (· = 0) hexit).to_iff.trans Session.exitOf_eq_zero_iff
    · exact (congrArg (· = 1) hexit).to_iff.trans Session.exitOf_eq_one_iff
    · obtain ⟨-, hdata, -⟩ := build_eq_ok_iff.mp h.build
      obtain ⟨k, hk⟩ := exists_ends_iff_returns.mpr ⟨n, hn⟩
      exact (sound_fresh _ hdata hsize _).ends_ne_offTape hk

/-- The program `+.-[` with a dump: its bracket fails, while the byte that was sent before waits in the
buffer. -/
theorem runFor_stdout_faulted :
    ∃ inv s p input report, Invocation.read ["-d", "-n", "1", "-e", "+.-["] = .ok inv ∧
      inv.Ready .bundled {} s p input ∧ Dump.colorFor s.color false (Session.colorsUnwanted []) = false ∧
      s.dump = true ∧ Command.runFor .bundled 4 ["-d", "-n", "1", "-e", "+.-["] {} = some report ∧
      report.exit = 1 ∧ report.stdout = 0x01 :: 0x0a :: Text.encode
        "00000000  00 2B 2E 2D 5B 00 00 00 00 00 00 00 00 00 00 00  |.+.-[...........|\n" := by
  have hread : Invocation.read ["-d", "-n", "1", "-e", "+.-["] =
      .ok { program := "+.-[", changes := [.dump true, .dataLength 1] } := rfl
  have hready : Invocation.Ready .bundled { program := "+.-[", changes := [.dump true, .dataLength 1] } {}
      { dataLength := 1, dump := true } (.ofText [0x2b, 0x2e, 0x2d, 0x5b]) {} :=
    ⟨Nat.zero_le _, rfl, rfl, rfl, rfl⟩
  obtain ⟨run, hrun⟩ : ∃ run, (fresh [0x2b, 0x2e, 0x2d, 0x5b] 1 {}).runFor 4 (Console.direct {}) = run :=
    ⟨_, rfl⟩
  have houtcome : run.outcome = some (.error (.fault 4 .loop Condition.bracketUnmatched)) := by
    rw [← hrun]
    rfl
  have htext : Dump.text? false run.machine.snapshot =
      some "00000000  00 2B 2E 2D 5B 00 00 00 00 00 00 00 00 00 00 00  |.+.-[...........|\n" := by
    rw [← hrun]
    rfl
  obtain ⟨-, hruns⟩ := runFor_stdout hread hready rfl
  obtain ⟨m, con, o⟩ := run
  obtain rfl : o = _ := houtcome
  obtain ⟨report, dump, hreport, hrender, hstdout, -, hexit, -⟩ := hruns 4 m con _ hrun
  obtain ⟨text, htext', hrenders⟩ := Dump.exists_render? false m.tape m.ptr
  obtain ⟨dump', hrender', hbytes⟩ := hrenders {} rfl
  obtain rfl := Option.some.inj (htext'.symm.trans htext)
  obtain rfl : dump' = dump := by simpa using hrender'.symm.trans hrender
  refine ⟨_, _, _, _, report, hread, hready, rfl, rfl, hreport, hexit.mpr ⟨_, rfl⟩, ?_⟩
  rw [hstdout, hbytes]
  rfl

end TapeMachine
