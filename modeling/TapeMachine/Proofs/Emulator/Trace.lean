import TapeMachine.Proofs.Emulator.Refinement
import TapeMachine.Proofs.Machine.History

/-!
# The log is a trace of the run

A log is written while the machine runs, by calls that stand at various places of the loop: before a tick,
after the last one, and in a branch of its own for each way of failing.  Whether the log tells what happened
depends on where exactly these places are.  The record of a tick is written before the tick is tried, and
only if the machine is running; so there is one for a tick that fails and for one that is refused at the
limit, and none for the tick that finds the machine stopped.

`Recounts` says what a truthful list of such records is, and does not mention the loop: there is a record at
place `i` exactly if the machine is running after `i` ticks that succeed, and it shows that machine.
`recountFor` is the list that the loop writes, and `recounts_of_runFor` says that it is truthful once the run
is over, and how long it is.  `runFor_log` puts it between what was logged before and the record that closes
the run.
-/

set_option autoImplicit false
namespace TapeMachine

/-- How many ticks of a run have failed: its last, or none. -/
def Outcome.failures : Outcome Unit → Nat
  | .ok () => 0
  | _ => 1

namespace Machine

variable {σ : Type} [Channel σ]

/-! ## Records of ticks -/

/-- After `i` ticks that succeed the machine is running, and the event shows it: its code pointer with the
region and the operator there, and its data pointer with the cell there. -/
def ShownAt (m : Machine) (c : σ) (i : Nat) (event : Event) : Prop :=
  ∃ m₁ c₁ v, Runs i m c m₁ c₁ ∧ m₁.isRunning = true ∧ m₁.cell? = some v ∧
    event = .tick m₁.ip (m₁.tape.region m₁.ip) m₁.opcode m₁.ptrIndex v

/-- The events show the machines that a run comes through and that are to tick, all of them and in order. -/
def Recounts (m : Machine) (c : σ) (events : List Event) : Prop :=
  ∀ i event, events[i]? = some event ↔ m.ShownAt c i event

/-- The records of the next `n` ticks of a run. -/
def recountFor : Nat → Machine → σ → List Event
  | 0, _, _ => []
  | n + 1, m, c =>
    if m.isRunning then
      Emulator.tickEvent m ::
        match m.tick c with
        | ⟨m', c', .ok false⟩ => recountFor n m' c'
        | _ => []
    else []

section Recounts

variable {m m' : Machine} {c c' : σ} {i : Nat} {event : Event}

theorem not_shownAt_of_stopped (hr : m.isRunning = false) : ¬ m.ShownAt c i event := by
  rintro ⟨m₁, c₁, v, hruns, hr₁, -⟩
  cases hruns with
  | refl =>
    rw [hr] at hr₁
    cases hr₁
  | tick hr' _ _ =>
    rw [hr] at hr'
    cases hr'

theorem Placed.shownAt_zero_iff (hm : m.Placed) (hr : m.isRunning = true) :
    m.ShownAt c 0 event ↔ Emulator.tickEvent m = event := by
  obtain ⟨v, hv⟩ := hm.cell?
  rw [Emulator.tickEvent, hv, Option.getD_some]
  constructor
  · rintro ⟨m₁, c₁, w, hruns, -, hw, rfl⟩
    cases hruns
    rw [hv] at hw
    cases hw
    rfl
  · rintro rfl
    exact ⟨m, c, v, .refl, hr, hv, rfl⟩

theorem shownAt_succ_iff (hr : m.isRunning = true) {stopped : Bool}
    (ht : m.tick c = ⟨m', c', .ok stopped⟩) :
    m.ShownAt c (i + 1) event ↔ m'.ShownAt c' i event := by
  constructor
  · rintro ⟨m₁, c₁, v, hruns, hshows⟩
    cases hruns with
    | tick _ ht' hruns =>
      rw [ht] at ht'
      cases ht'
      exact ⟨m₁, c₁, v, hruns, hshows⟩
  · rintro ⟨m₁, c₁, v, hruns, hshows⟩
    exact ⟨m₁, c₁, v, .tick hr ht hruns, hshows⟩

theorem not_shownAt_succ (ht : ∀ stopped, (m.tick c).outcome ≠ .ok stopped) :
    ¬ m.ShownAt c (i + 1) event := by
  rintro ⟨m₁, c₁, v, hruns, -⟩
  cases hruns with
  | tick _ ht' _ => exact ht _ (congrArg Step.outcome ht')

/-- Of a machine that has stopped there is nothing to show. -/
theorem recounts_of_stopped (hr : m.isRunning = false) : m.Recounts c [] :=
  fun _ _ ↦ iff_of_false nofun (not_shownAt_of_stopped hr)

/-- A machine that is running is shown first, and behind it what its tick leads to. -/
theorem Placed.recounts_cons (hm : m.Placed) (hr : m.isRunning = true) {stopped : Bool}
    (ht : m.tick c = ⟨m', c', .ok stopped⟩) {events : List Event} (hrest : m'.Recounts c' events) :
    m.Recounts c (Emulator.tickEvent m :: events) := by
  intro i event
  cases i with
  | zero => rw [List.getElem?_cons_zero, Option.some_inj, hm.shownAt_zero_iff hr]
  | succ i => rw [List.getElem?_cons_succ, hrest, shownAt_succ_iff hr ht]

/-- It is shown even if its tick fails. -/
theorem Placed.recounts_singleton (hm : m.Placed) (hr : m.isRunning = true)
    (ht : ∀ stopped, (m.tick c).outcome ≠ .ok stopped) : m.Recounts c [Emulator.tickEvent m] := by
  intro i event
  cases i with
  | zero => rw [List.getElem?_cons_zero, Option.some_inj, hm.shownAt_zero_iff hr]
  | succ i => exact iff_of_false nofun (not_shownAt_succ ht)

/-- **The records of a run that has ended are truthful**, and there is one for each tick that was counted
and for the one that failed. -/
theorem Placed.recounts_of_runFor (n : Nat) {m m' : Machine} {c c' : σ} {o : Outcome Unit}
    (hm : m.Placed) (h : m.runFor n c = ⟨m', c', some o⟩) :
    m.Recounts c (m.recountFor n c) ∧
      m.ticks + (m.recountFor n c).length = m'.ticks + o.failures := by
  induction n generalizing m c with
  | zero => cases h
  | succ n ih =>
    rw [recountFor]
    rw [runFor] at h
    cases hr : m.isRunning with
    | false =>
      rw [tick_of_stopped hr] at h
      cases h
      rw [if_neg Bool.false_ne_true]
      exact ⟨recounts_of_stopped hr, rfl⟩
    | true =>
      have hplaced := hm.tick c
      obtain ⟨⟨m₁, c₁, o₁⟩, ht⟩ : ∃ s, m.tick c = s := ⟨_, rfl⟩
      rw [if_pos rfl]
      rw [ht] at h hplaced ⊢
      rcases o₁ with (_ | _) | e | _
      · obtain ⟨hrest, hticks⟩ := ih (show m₁.Placed from hplaced) h
        rw [ticks_of_tick hr ht] at hticks
        refine ⟨hm.recounts_cons hr ht hrest, ?_⟩
        change m.ticks + ((m₁.recountFor n c₁).length + 1) = _
        omega
      · cases h
        refine ⟨hm.recounts_cons hr ht (recounts_of_stopped (isRunning_of_tick ht)), ?_⟩
        rw [ticks_of_tick hr ht]
        rfl
      · cases h
        refine ⟨hm.recounts_singleton hr (by simp [ht]), ?_⟩
        rw [(Ends.error ht).ticks]
        rfl
      · cases h
        refine ⟨hm.recounts_singleton hr (by simp [ht]), ?_⟩
        rw [(Ends.offTape ht).ticks]
        rfl

end Recounts
end Machine

/-! ## The log of a run -/

/-- Of the records of ticks, those that are asked for. -/
def Setup.shown (setup : Setup) (events : List Event) : List Event :=
  if setup.verbose then events else []

theorem Setup.shown_append (setup : Setup) (events events' : List Event) :
    setup.shown (events ++ events') = setup.shown events ++ setup.shown events' := by
  rw [shown, shown, shown]
  split
  · rfl
  · rfl

namespace Emulator

theorem record_of_recording (emu : Emulator) (h : emu.setup.logger = .recording) (e : Event) :
    emu.record e = { emu with log := emu.log.push e } := by
  rw [record, if_pos h]

/-- The record that closes a run.  There is none while it is paused, nor for a byte that is not there. -/
def closing (r : Run Console) : List Event :=
  match r.outcome with
  | some (.ok ()) => [.halted r.machine.halted r.machine.ticks r.channel.sent r.channel.received]
  | some (.error e) =>
    let located := Error.runtime r.machine.ticks r.machine.ip e
    [if located.isFault then .fault located else .aborted located]
  | _ => []

section Recording

variable {setup : Setup} (hrec : setup.logger = .recording)

include hrec

/-- Before a tick, the machine is shown if that is asked for and it is running. -/
theorem tick_of_recording (con : Console) (m : Machine) (log : Array Event) :
    ∃ log', tick ⟨setup, con, some m, log⟩ =
        (⟨setup, (m.tick con).channel, some (m.tick con).machine, log'⟩,
          (m.tick con).outcome.located m.ticks m.ip) ∧
      log'.toList = log.toList ++ setup.shown (if m.isRunning then [tickEvent m] else []) := by
  have htrace : trace ⟨setup, con, none, log⟩ m =
      ⟨setup, con, none, (trace ⟨setup, con, none, log⟩ m).log⟩ := by
    obtain ⟨log', hlog⟩ := exists_trace_eq ⟨setup, con, none, log⟩ m
    rw [hlog]
  refine ⟨(trace ⟨setup, con, none, log⟩ m).log, ?_, ?_⟩
  · rw [tick, tickMachine, htrace]
  · rw [trace, Setup.shown]
    cases setup.verbose with
    | false => simp
    | true =>
      cases m.isRunning with
      | false => simp
      | true => simp [record_of_recording ⟨setup, con, none, log⟩ hrec]

/-- Whatever is recorded before the last flush, the flush adds nothing to it. -/
theorem log_close_record {emu : Emulator} (hemu : emu.setup = setup) (e : Event) (o : Outcome Unit) :
    ((emu.record e).close o).1.log.toList = emu.log.toList ++ [e] := by
  rw [close_eq, record_of_recording emu (hemu ▸ hrec), Array.toList_push]

/-- **What a run adds to the log**: the machines that it showed, and the record that closes it. -/
theorem runFor_log (n : Nat) (con : Console) (m : Machine) (log : Array Event) :
    (runFor n ⟨setup, con, some m, log⟩).1.log.toList =
      log.toList ++ setup.shown (m.recountFor n con) ++ closing (m.runFor n con) := by
  induction n generalizing con m log with
  | zero => simp [runFor, Machine.recountFor, Machine.runFor, closing, Setup.shown]
  | succ n ih =>
    obtain ⟨log', htick, hlog⟩ := tick_of_recording hrec con m log
    obtain ⟨⟨m', con', o⟩, hs⟩ : ∃ s, m.tick con = s := ⟨_, rfl⟩
    rw [hs] at htick
    rw [runFor, htick, Machine.runFor, Machine.recountFor, hs]
    rcases o with (_ | _) | e | _
    · cases hr : m.isRunning with
      | false =>
        rw [Machine.tick_of_stopped hr] at hs
        cases hs
      | true =>
        rw [hr] at hlog
        refine (ih con' m' log').trans ?_
        rw [hlog, List.append_assoc log.toList, ← setup.shown_append]
        rfl
    · refine (log_close_record hrec rfl _ _).trans ?_
      rw [hlog]
      rfl
    · -- the label was taken before the tick, but the tick has changed nothing
      obtain ⟨-, rfl, -⟩ := Machine.tick_error_cases hs
      refine (log_close_record hrec rfl _ _).trans ?_
      rw [hlog]
      rfl
    · have hclose : (close ⟨setup, con', some m', log'⟩ .offTape).1.log = log' := by rw [close_eq]
      refine (congrArg Array.toList hclose).trans ?_
      rw [hlog]
      exact (List.append_nil _).symm

/-- A reset that succeeds is recorded, with the program that the new machine holds. -/
theorem reset_of_recording {emu emu₀ : Emulator} (hemu : emu.setup = setup)
    (h : emu.reset = (.ok (), emu₀)) :
    ∃ m₀, Machine.build setup.program setup.dataLength setup.options = .ok m₀ ∧
      emu₀ = ⟨setup, emu.console.rewind, some m₀,
        emu.log.push (.created setup.options setup.dataLength setup.program)⟩ := by
  subst hemu
  rw [reset] at h
  split at h
  · cases h
  · rename_i m₀ hb
    have hcode : m₀.tape.code = emu.setup.program := by
      obtain ⟨-, -, rfl⟩ := Machine.build_eq_ok_iff.mp hb
      exact Tape.code_ofProgram _ _
    have hwelcome :=
      record_of_recording { emu with console := emu.console.rewind, machine := none } hrec
    cases h
    exact ⟨m₀, hb, by rw [welcome, hwelcome, hcode]⟩

end Recording

/-- The record that closes a run which left `m` and `con` and came to `o`. -/
structure Closes (m : Machine) (con : Console) (o : Outcome Unit) (event : Event) : Prop where
  /-- If the machine did not fail, it has stopped, and that is what the record says. -/
  ok : o = .ok () → event = .halted m.halted m.ticks con.sent con.received
  /-- If it failed, the record tells the error with its label, as a fault if it is one. -/
  fault : ∀ e, o = .error e → Error.isFault (.runtime m.ticks m.ip e) = true →
    event = .fault (.runtime m.ticks m.ip e)
  aborted : ∀ e, o = .error e → Error.isFault (.runtime m.ticks m.ip e) = false →
    event = .aborted (.runtime m.ticks m.ip e)

/-- A run that ends on the tape is closed by one record. -/
theorem exists_closing_eq (m : Machine) (con : Console) {o : Outcome Unit} (ho : o ≠ .offTape) :
    ∃ event, closing ⟨m, con, some o⟩ = [event] ∧ Closes m con o event := by
  cases o with
  | ok => exact ⟨_, rfl, fun _ ↦ rfl, nofun, nofun⟩
  | offTape => exact absurd rfl ho
  | error e =>
    refine ⟨_, rfl, nofun, ?_, ?_⟩
    · rintro _ ⟨⟩ hfault
      exact if_pos hfault
    · rintro _ ⟨⟩ hfault
      exact if_neg (by rw [hfault]; exact Bool.false_ne_true)

/-- What stops a run is a fault, or else it is the tick limit; the label does not hide which. -/
theorem isFault_runtime_eq_false_iff {k : Nat} {m m' : Machine} {con con' : Console} {e : Error}
    (h : m.Ends k con m' con' (.error e)) (tick ip : Int) :
    Error.isFault (.runtime tick ip e) = false ↔ e = Condition.tickLimit := by
  obtain ⟨con₁, htick⟩ := h.exists_tick_error rfl
  obtain ⟨-, -, ⟨-, rfl, -⟩ | ⟨-, cause, rfl, -⟩⟩ := Machine.tick_error_cases htick
  · exact iff_of_true rfl rfl
  · exact iff_of_false nofun nofun

end Emulator

open Emulator

/-- **The log of a run tells what happened.**  Take an emulator that records, and a run after a reset that
succeeds, as soon as it is over.  It is the run of a machine that was built from the same setup, and behind
what was logged before there are now these records and no others.

* First that a machine was created, with its options, its data length and its program.
* Then, if the setup asks for it, one for each tick that was tried on a running machine, in order, and each
  shows the machine as it was before that tick.  They are as many as the ticks that the machine has counted,
  and one more if the run ended with an error.
* Then one that closes the run.  If the machine has not failed, it says that the machine stopped, whatever
  becomes of the flush that follows.  If it has failed, the record tells the error with its label, as a fault
  if there is a fault in its chain; there is one, unless it was the tick limit that stopped the run.

The length of the tape is taken to be a word. -/
theorem log_of_returns {emu emu₀ emu' : Emulator} {o' : Outcome Unit}
    (hrec : emu.setup.logger = .recording)
    (hsize : IsWord (1 + emu.setup.program.length + emu.setup.dataLength))
    (hreset : emu.reset = (.ok (), emu₀)) (hrun : emu₀.Returns emu' o') :
    ∃ m₀ m con o shown event,
      Machine.build emu.setup.program emu.setup.dataLength emu.setup.options = .ok m₀ ∧
      m₀.Returns emu₀.console m con o ∧ o ≠ .offTape ∧ Settles m con o emu' o' ∧
      emu'.log.toList = emu.log.toList ++
        .created emu.setup.options emu.setup.dataLength emu.setup.program :: (shown ++ [event]) ∧
      (emu.setup.verbose = false → shown = []) ∧
      (emu.setup.verbose = true → m₀.Recounts emu₀.console shown ∧
        (o = .ok () → shown.length = m.ticks) ∧
        ∀ e, o = .error e → shown.length = m.ticks + 1) ∧
      Closes m con o event ∧
      ∀ e, o = .error e →
        (Error.isFault (.runtime m.ticks m.ip e) = false ↔ e = Condition.tickLimit) := by
  obtain ⟨m₀, hb, rfl⟩ := reset_of_recording hrec rfl hreset
  obtain ⟨n, hn⟩ := hrun
  have hlog := runFor_log hrec n emu.console.rewind m₀ (emu.log.push
    (.created emu.setup.options emu.setup.dataLength emu.setup.program))
  obtain ⟨log', heq⟩ := runFor_eq n emu.setup emu.console.rewind m₀ (emu.log.push
    (.created emu.setup.options emu.setup.dataLength emu.setup.program))
  obtain ⟨⟨m, con, o⟩, hr⟩ : ∃ r, m₀.runFor n emu.console.rewind = r := ⟨_, rfl⟩
  rw [hn, hr] at hlog heq
  cases o with
  | none => cases heq
  | some o =>
    have hsound : m₀.Sound ∧ m₀.ticks = 0 := by
      obtain ⟨-, hd, rfl⟩ := Machine.build_eq_ok_iff.mp hb
      exact ⟨Machine.sound_fresh _ hd hsize _, rfl⟩
    obtain ⟨hrecounts, hlength⟩ := hsound.1.placed.recounts_of_runFor n hr
    obtain ⟨k, hends⟩ := Machine.exists_ends_of_runFor n hr
    have ho : o ≠ .offTape := hsound.1.ends_ne_offTape hends
    obtain ⟨event, hevent, hcloses⟩ := exists_closing_eq m con ho
    rw [hevent, Array.toList_push, List.append_assoc, List.append_assoc] at hlog
    rw [hsound.2, Nat.zero_add] at hlength
    refine ⟨m₀, m, con, o, _, event, hb, ⟨n, hr⟩, ho, ?_, hlog, ?_, ?_, hcloses, ?_⟩
    · cases heq
      exact settles_settle rfl rfl
    · intro hverbose
      rw [Setup.shown, hverbose]
      rfl
    · intro hverbose
      rw [Setup.shown, if_pos hverbose]
      exact ⟨hrecounts, by rintro rfl; exact hlength, by rintro e rfl; exact hlength⟩
    · rintro e rfl
      exact isFault_runtime_eq_false_iff hends _ _

/-- The program `.` on a full sink: what it sends waits in a buffer until the flush fails, but the machine has
stopped by itself and is recorded so. -/
theorem log_of_returns_full_sink :
    ∃ (emu emu₀ emu' : Emulator),
      emu.setup.logger = .recording ∧ IsWord (1 + emu.setup.program.length + emu.setup.dataLength) ∧
      emu.reset = (.ok (), emu₀) ∧
      emu₀.Returns emu' (.error (Console.failure .outputFailed "full")) ∧
      emu'.log.toList =
        [.created {} 1 [0x2e], .tick 1 .code .output 2 0, .halted false 1 1 0] := by
  let output : Output := .buffered { sink := { limit := some 0, error := "full" }, size := 4 }
  let emu : Emulator :=
    { setup := { verbose := true, logger := .recording, program := [0x2e], dataLength := 1 }
      console := { output := some output } }
  have hsize : IsWord (1 + emu.setup.program.length + emu.setup.dataLength) := by decide
  have hreset : emu.reset = (.ok (), emu.reset.2) := rfl
  have hrun : emu.reset.2.Returns (emu.reset.2.runFor 1).1
      (.error (Console.failure .outputFailed "full")) := ⟨1, rfl⟩
  obtain ⟨m₀, m, con, o, shown, event, hb, hret, -, -, hlog, -, hverbose, hcloses, -⟩ :=
    log_of_returns rfl hsize hreset hrun
  obtain ⟨-, -, rfl⟩ := Machine.build_eq_ok_iff.mp hb
  let run := (Machine.fresh emu.setup.program emu.setup.dataLength emu.setup.options).runFor 1
    emu.reset.2.console
  have hret' : (Machine.fresh emu.setup.program emu.setup.dataLength emu.setup.options).Returns
      emu.reset.2.console run.machine run.channel (.ok ()) := ⟨1, rfl⟩
  obtain ⟨rfl, rfl, rfl⟩ := hret.unique hret'
  obtain ⟨hrecounts, hlength, -⟩ := hverbose rfl
  have hfirst := (hrecounts 0 (.tick 1 .code .output 2 0)).mpr ⟨_, _, 0, .refl, rfl, rfl, rfl⟩
  obtain ⟨first, rfl⟩ := List.length_eq_one_iff.mp (hlength rfl)
  cases hfirst
  rw [hcloses.ok rfl] at hlog
  exact ⟨emu, _, _, rfl, hsize, hreset, hrun, hlog⟩

end TapeMachine
