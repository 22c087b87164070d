import TapeMachine.Proofs.Emulator.Refinement
import TapeMachine.Proofs.Machine.History

/-!
# Sessions of an emulator

Whoever holds an emulator may set what the next machine is built from, attach other streams, reset, tick
and run it, in whatever order.  An `Action` is one such thing, and a session is a list of them.

Most of what is set takes effect at the next reset only, and a reset may fail.  So the machine an emulator
holds may have little to do with what the emulator was told last.  What it does have to do with is said by
`Attended`: a machine, its console, and what the machine has executed.  Of all actions only three concern
an attended machine, namely ticks, runs and new streams.

* If an action resets the emulator, it does to it what it does to a machine just built from the current
  setup, attended from then on (`Resets.holds_perform`).
* If it does not, and there is a machine, it does to the emulator what it does to that machine
  (`Holds.perform`).  This is so even for a reset, which then has failed and changes nothing.
* If it does not, and there is no machine, there still is none (`isSome_machine_perform`).

Since an attended machine knows neither the setup nor the log, the state of a session depends on what came
before the last reset only through what that reset has used: the setup it built the machine from, and how
far the streams were read and written.
-/

set_option autoImplicit false
namespace TapeMachine

/-! ## Ticks that succeed -/

namespace Machine

variable {σ : Type} [Channel σ]

/-- An operator that does not succeed leaves the machine as it was. -/
theorem Placed.machine_execute {m : Machine} (hm : m.Placed) {op : Operator} {c : σ}
    (h : (m.execute op c).outcome ≠ .ok ()) : (m.execute op c).machine = m := by
  obtain ⟨⟨m', c', o⟩, hx⟩ : ∃ s, m.execute op c = s := ⟨_, rfl⟩
  cases o with
  | ok => exact absurd (congrArg Step.outcome hx) h
  | error e =>
    obtain ⟨rfl, -⟩ := fails_of_execute hx
    rw [hx]
  | offTape =>
    -- only the search for a partner bracket can leave the tape
    rcases hm.execute_cases op c with ⟨-, hon⟩ | ⟨d, -, hjump⟩
    · exact absurd (congrArg Step.outcome hx) hon
    · rw [hjump, jump] at hx ⊢
      split at hx
      · cases hx
      · cases hx
      · cases hx
        rfl

/-- A tick that executes nothing leaves the machine as it was. -/
theorem Placed.tick_eq_of_deed? {m : Machine} (hm : m.Placed) {c : σ} (h : m.deed? c = none) :
    (m.tick c).machine = m := by
  rcases deed_cases m c with ⟨-, hmachine, -⟩ | ⟨-, ho, hmachine, -⟩ | ⟨hd, -⟩
  · exact hmachine
  · exact hmachine.trans (hm.machine_execute ho)
  · rw [h] at hd
    cases hd

/-- The machine `m` is what `m₀` has become by ticks that succeeded, on whatever the console was each
time; and `ds` is what they executed. -/
inductive Advances (m₀ : Machine) : List Deed → Machine → Prop
  | start : Advances m₀ [] m₀
  | tick {ds : List Deed} {m m' : Machine} {con con' : Console} {stopped : Bool}
      (h : Advances m₀ ds m) (hr : m.isRunning = true) (ht : m.tick con = ⟨m', con', .ok stopped⟩) :
      Advances m₀ (ds ++ [⟨m.opcode, m.cell?.getD 0⟩]) m'

/-- A tick, whatever comes of it, adds its deed. -/
theorem Advances.tick_deed? {m₀ m : Machine} {ds : List Deed} (h : m₀.Advances ds m) (hm : m.Placed)
    (con : Console) : m₀.Advances (ds ++ (m.deed? con).toList) (m.tick con).machine := by
  cases hd : m.deed? con with
  | none =>
    rw [hm.tick_eq_of_deed? hd, Option.toList_none, List.append_nil]
    exact h
  | some d =>
    rw [deed?] at hd
    split at hd
    · rename_i stopped hr ho
      cases hd
      exact h.tick hr (show m.tick con = ⟨_, _, .ok stopped⟩ by rw [← ho])
    · cases hd

/-- A run, whatever comes of it, adds its deeds. -/
theorem Advances.runFor {m₀ m : Machine} {ds : List Deed} (h : m₀.Advances ds m) (hm : m.Placed)
    (n : Nat) (con : Console) : m₀.Advances (ds ++ m.deeds n con) (m.runFor n con).machine := by
  induction n generalizing m ds con with
  | zero =>
    rw [deeds, List.append_nil]
    exact h
  | succ n ih =>
    have hadvances := h.tick_deed? hm con
    have hplaced := hm.tick con
    rw [Machine.runFor, deeds]
    generalize m.tick con = s at hadvances hplaced
    obtain ⟨m', con', o⟩ := s
    rcases o with (_ | _) | e | _
    · rw [← List.append_assoc]
      exact ih hadvances hplaced con'
    · exact hadvances
    · exact hadvances
    · exact hadvances

end Machine

open Machine

/-- Gives a console new streams.  The counters go on. -/
def Console.attach (con : Console) (input : Option Input) (output : Option Output) : Console :=
  { con with input, output }

/-- A flush shows neither in the counters nor in what was taken. -/
theorem Console.passes_flush (con : Console) : con.Passes [] [] con.flush.2 :=
  Console.Action.flush.passes_perform con

namespace Emulator

/-! ## Actions -/

/-- What can be done with an emulator. -/
inductive Action where
  | setProgram (program : List UInt8)
  | setDataLength (dataLength : Int)
  | setOptions (options : Options)
  | setVerbose (verbose : Bool)
  | setLogger (logger : Logger)
  | attach (input : Option Input) (output : Option Output)
  | reset
  | tick
  /-- Runs the machine, and looks at it after so many ticks. -/
  | run (ticks : Nat)
  deriving Repr

namespace Action

def perform (emu : Emulator) : Action → Emulator
  | setProgram program => { emu with setup := { emu.setup with program } }
  | setDataLength dataLength => { emu with setup := { emu.setup with dataLength } }
  | setOptions options => { emu with setup := { emu.setup with options } }
  | setVerbose verbose => { emu with setup := { emu.setup with verbose } }
  | setLogger logger => { emu with setup := { emu.setup with logger } }
  | attach input output => { emu with console := emu.console.attach input output }
  | reset => emu.reset.2
  | tick => emu.tick.1
  | run n => (emu.runFor n).1

/-- Whether an action begins with a reset.  A tick does so if there is no machine, and so does a run, with
its first tick. -/
def WantsReset (emu : Emulator) : Action → Prop
  | reset => True
  | tick => emu.machine = none
  | run n => emu.machine = none ∧ 0 < n
  | _ => False

/-- An action that begins with a reset, which succeeds. -/
def Resets (emu : Emulator) (a : Action) : Prop :=
  a.WantsReset emu ∧ emu.reset.1 = .ok ()

end Action

/-- Performs some actions in turn. -/
def afterAll (emu : Emulator) (actions : List Action) : Emulator :=
  actions.foldl Action.perform emu

/-- None of some actions resets the emulator. -/
def Undisturbed (emu : Emulator) : List Action → Prop
  | [] => True
  | a :: rest => ¬a.Resets emu ∧ Undisturbed (a.perform emu) rest

/-! ## Resets by the way -/

/-- The first tick is a tick after a reset, if that succeeds. -/
theorem tick_of_reset {emu emu₀ : Emulator} (hm : emu.machine = none)
    (h : emu.reset = (.ok (), emu₀)) : emu.tick = emu₀.tick := by
  obtain ⟨setup, con, machine, log⟩ := emu
  obtain rfl : machine = none := hm
  rw [reset] at h
  rw [tick]
  split at h
  · cases h
  · rename_i m hb
    cases h
    obtain ⟨log', hw⟩ := exists_record_eq ⟨setup, con.rewind, none, log⟩
      (.created setup.options setup.dataLength m.tape.code)
    simp only [welcome, hw, tick]

/-- If the reset fails, so does the first tick, and nothing happens. -/
theorem tick_of_reset_error {emu emu₀ : Emulator} {e : Error} (hm : emu.machine = none)
    (h : emu.reset = (.error e, emu₀)) : emu.tick = (emu, .error e) := by
  obtain ⟨setup, con, machine, log⟩ := emu
  obtain rfl : machine = none := hm
  rw [reset] at h
  rw [tick]
  split at h
  · cases h
    rfl
  · cases h

/-- A first run is a run after a reset, if that succeeds. -/
theorem runFor_of_reset {emu emu₀ : Emulator} (hm : emu.machine = none)
    (h : emu.reset = (.ok (), emu₀)) (n : Nat) : emu.runFor (n + 1) = emu₀.runFor (n + 1) := by
  rw [runFor, runFor, tick_of_reset hm h]

/-- If the reset fails, so does a first run.  All it does is to say so in the log, and to flush. -/
theorem runFor_of_reset_error {emu emu₀ : Emulator} {e : Error} (hm : emu.machine = none)
    (h : emu.reset = (.error e, emu₀)) (n : Nat) :
    emu.runFor (n + 1) =
      ({ emu.recordStop e with console := emu.console.flush.2 }, some (.error e)) := by
  obtain ⟨log, hlog⟩ := exists_recordStop_eq emu e
  rw [runFor, tick_of_reset_error hm h]
  simp only [hlog, close_eq]
  rfl

theorem reset_of_error {emu : Emulator} {e : Error} (h : emu.reset.1 = .error e) :
    emu.reset = (.error e, emu) := by
  rw [reset] at h ⊢
  split at h
  · cases h
    rfl
  · cases h

/-- The flush behind a run changes nothing about what the console has carried. -/
theorem carries_settle {m : Machine} (hm : m.Placed) (n : Nat) (con : Console) :
    Carries (m.deeds n con) con (settle (m.runFor n con)).1 := by
  have hcarries := hm.carries_runFor n con
  rw [settle]
  split
  · exact hcarries
  · have hflush : Carries [] (m.runFor n con).channel (m.runFor n con).channel.flush.2 :=
      ⟨[], Console.passes_flush _, rfl⟩
    rw [← List.append_nil (m.deeds n con)]
    exact hcarries.trans hflush

/-! ## Machines that are attended -/

/-- A machine since it was built: the console it speaks to, and what it has executed. -/
structure Attended where
  machine : Machine
  console : Console
  deeds : List Deed := []

namespace Attended

/-- What an action does to a machine that there is.  Only three of them concern it. -/
def perform (s : Attended) : Action → Attended
  | .attach input output => { s with console := s.console.attach input output }
  | .tick =>
    ⟨(s.machine.tick s.console).machine, (s.machine.tick s.console).channel,
      s.deeds ++ (s.machine.deed? s.console).toList⟩
  | .run n =>
    ⟨(s.machine.runFor n s.console).machine, (settle (s.machine.runFor n s.console)).1,
      s.deeds ++ s.machine.deeds n s.console⟩
  | _ => s

/-- Performs some actions in turn. -/
def afterAll (s : Attended) (actions : List Action) : Attended :=
  actions.foldl perform s

/-- What the deeds of an attended machine account for. -/
structure Accounts (m₀ : Machine) (s : Attended) : Prop where
  placed : s.machine.Placed
  /-- The machine is the one it was, advanced by the ticks that succeeded. -/
  advances : m₀.Advances s.deeds s.machine
  ticks : s.machine.ticks = s.deeds.length
  /-- The console has counted the `.` that were executed. -/
  sent : s.console.sent = Deed.count .output s.deeds
  /-- The console has counted the `,` that were executed. -/
  received : s.console.received = Deed.count .input s.deeds

/-- Deeds that a console carries show in its counters. -/
theorem counters_of_carries {con con' : Console} {ds ds' : List Deed} (h : Carries ds' con con')
    (hsent : con.sent = Deed.count .output ds) (hreceived : con.received = Deed.count .input ds) :
    con'.sent = Deed.count .output (ds ++ ds') ∧ con'.received = Deed.count .input (ds ++ ds') := by
  obtain ⟨got, hpasses, hgot⟩ := h
  rw [Deed.count_append, Deed.count_append, hpasses.sent, hpasses.received, hsent, hreceived,
    Deed.length_sent, hgot]
  exact ⟨rfl, rfl⟩

/-- **Every action keeps the accounts.** -/
theorem Accounts.perform {m₀ : Machine} {s : Attended} (h : Accounts m₀ s) (a : Action) :
    Accounts m₀ (s.perform a) := by
  cases a with
  | setProgram | setDataLength | setOptions | setVerbose | setLogger | reset => exact h
  | attach input output => exact ⟨h.placed, h.advances, h.ticks, h.sent, h.received⟩
  | tick =>
    obtain ⟨hsent, hreceived⟩ :=
      counters_of_carries (h.placed.carries_tick s.console) h.sent h.received
    refine ⟨h.placed.tick s.console, h.advances.tick_deed? h.placed s.console, ?_, hsent, hreceived⟩
    simp only [Attended.perform, List.length_append, ticks_tick, h.ticks]
  | run n =>
    obtain ⟨hsent, hreceived⟩ :=
      counters_of_carries (carries_settle h.placed n s.console) h.sent h.received
    refine ⟨runFor_invariant (fun _ c hm ↦ hm.tick c) n s.machine s.console h.placed,
      h.advances.runFor h.placed n s.console, ?_, hsent, hreceived⟩
    simp only [Attended.perform, List.length_append, ticks_runFor, h.ticks]

theorem Accounts.afterAll {m₀ : Machine} (actions : List Action) {s : Attended}
    (h : Accounts m₀ s) : Accounts m₀ (s.afterAll actions) := by
  induction actions generalizing s with
  | nil => exact h
  | cons a rest ih => exact ih (h.perform a)

/-- A machine just built has done nothing, and a console just rewound has counted nothing. -/
theorem accounts_build {program : List UInt8} {dataLength : Int} {options : Options} {m₀ : Machine}
    (hb : build program dataLength options = .ok m₀) (con : Console) :
    Accounts m₀ ⟨m₀, con.rewind, []⟩ := by
  obtain ⟨-, hd, rfl⟩ := build_eq_ok_iff.mp hb
  exact ⟨(intact_fresh program hd options).placed, .start, rfl, rfl, rfl⟩

end Attended

/-! ## Emulators that attend a machine -/

/-- The machine and the console of an emulator are those attended. -/
structure Holds (emu : Emulator) (s : Attended) : Prop where
  machine : emu.machine = some s.machine
  console : emu.console = s.console

/-- **An action that does not reset concerns the machine there is**, and nothing else. -/
theorem Holds.perform {emu : Emulator} {s : Attended} (h : emu.Holds s) {a : Action}
    (ha : ¬a.Resets emu) : (a.perform emu).Holds (s.perform a) := by
  obtain ⟨setup, con, machine, log⟩ := emu
  obtain ⟨m, con', ds⟩ := s
  obtain ⟨rfl, rfl⟩ : machine = some m ∧ con = con' := ⟨h.machine, h.console⟩
  cases a with
  | setProgram | setDataLength | setOptions | setVerbose | setLogger | attach => exact ⟨rfl, rfl⟩
  | reset =>
    cases hr : (reset ⟨setup, con, some m, log⟩).1 with
    | ok => exact absurd ⟨trivial, hr⟩ ha
    | error e =>
      rw [Action.perform, reset_of_error hr]
      exact h
  | tick =>
    obtain ⟨log', ht⟩ := exists_tick_eq setup con m log
    rw [Action.perform, ht]
    exact ⟨rfl, rfl⟩
  | run n =>
    obtain ⟨log', hr⟩ := runFor_eq n setup con m log
    rw [Action.perform, hr]
    exact ⟨rfl, rfl⟩

theorem Undisturbed.holds {emu : Emulator} {s : Attended} {actions : List Action}
    (hu : emu.Undisturbed actions) (h : emu.Holds s) :
    (emu.afterAll actions).Holds (s.afterAll actions) := by
  induction actions generalizing emu s with
  | nil => exact h
  | cons a rest ih => exact ih hu.2 (h.perform hu.1)

/-- **An action that resets concerns a machine just built.** -/
theorem Action.Resets.holds_perform {emu : Emulator} {a : Action} (h : a.Resets emu) :
    ∃ m₀, build emu.setup.program emu.setup.dataLength emu.setup.options = .ok m₀ ∧
      (a.perform emu).Holds (Attended.perform ⟨m₀, emu.console.rewind, []⟩ a) := by
  obtain ⟨hwants, hok⟩ := h
  have hreset : emu.reset = (.ok (), emu.reset.2) := by rw [← hok]
  obtain ⟨m₀, log, hb, heq⟩ := exists_reset_eq hreset
  refine ⟨m₀, hb, ?_⟩
  have hholds : emu.reset.2.Holds ⟨m₀, emu.console.rewind, []⟩ := by
    rw [heq]
    exact ⟨rfl, rfl⟩
  have hsome : emu.reset.2.machine ≠ none := by
    rw [hholds.machine]
    exact nofun
  cases a with
  | setProgram | setDataLength | setOptions | setVerbose | setLogger | attach => exact hwants.elim
  | reset => exact hholds
  | tick =>
    rw [perform, tick_of_reset hwants hreset]
    exact hholds.perform (a := .tick) fun h ↦ hsome h.1
  | run n =>
    obtain ⟨hnone, hn⟩ := hwants
    obtain ⟨n, rfl⟩ := Nat.exists_eq_add_of_lt hn
    rw [Nat.zero_add, perform, runFor_of_reset hnone hreset n]
    exact hholds.perform (a := .run (n + 1)) fun h ↦ hsome h.1.1

/-- An action whose reset fails leaves all that a machine can see as it was.  Only a run leaves anything
behind: the record of its own end, in the log. -/
theorem Action.WantsReset.perform_of_error {emu : Emulator} {a : Action} {e : Error}
    (h : a.WantsReset emu) (he : emu.reset.1 = .error e) :
    (a.perform emu).machine = emu.machine ∧
      (a.perform emu).console.sent = emu.console.sent ∧
      (a.perform emu).console.received = emu.console.received ∧
      ((∀ n, a ≠ .run n) → a.perform emu = emu) ∧
      ∀ n, a = .run n → (a.perform emu).log = (emu.recordStop e).log := by
  have hreset := reset_of_error he
  cases a with
  | setProgram | setDataLength | setOptions | setVerbose | setLogger | attach => exact h.elim
  | reset =>
    rw [perform, hreset]
    exact ⟨rfl, rfl, rfl, fun _ ↦ rfl, nofun⟩
  | tick =>
    rw [perform, tick_of_reset_error h hreset]
    exact ⟨rfl, rfl, rfl, fun _ ↦ rfl, nofun⟩
  | run n =>
    obtain ⟨hnone, hn⟩ := h
    obtain ⟨n, rfl⟩ := Nat.exists_eq_add_of_lt hn
    obtain ⟨log, hlog⟩ := exists_recordStop_eq emu e
    have hflush := emu.console.passes_flush
    rw [Nat.zero_add, perform, runFor_of_reset_error hnone hreset n, hlog]
    exact ⟨rfl, hflush.sent, hflush.received, fun h ↦ absurd rfl (h _), fun _ _ ↦ rfl⟩

/-- There is a machine after an action if there was one, or if the action has reset the emulator. -/
theorem isSome_machine_perform (emu : Emulator) (a : Action) :
    (a.perform emu).machine.isSome ↔ emu.machine.isSome ∨ a.Resets emu := by
  by_cases ha : a.Resets emu
  · obtain ⟨m₀, -, hholds⟩ := ha.holds_perform
    rw [hholds.machine]
    exact iff_of_true rfl (Or.inr ha)
  · cases hm : emu.machine with
    | some m =>
      have hholds : emu.Holds ⟨m, emu.console, []⟩ := ⟨hm, rfl⟩
      rw [(hholds.perform ha).machine]
      exact iff_of_true rfl (Or.inl rfl)
    | none =>
      have hnone : (a.perform emu).machine = none := by
        by_cases hwants : a.WantsReset emu
        · cases hr : emu.reset.1 with
          | ok => exact absurd ⟨hwants, hr⟩ ha
          | error e => rw [(hwants.perform_of_error hr).1, hm]
        · cases a with
          | setProgram | setDataLength | setOptions | setVerbose | setLogger | attach => exact hm
          | reset => exact absurd trivial hwants
          | tick => exact absurd hm hwants
          | run n =>
            cases n with
            | zero => exact hm
            | succ n => exact absurd ⟨hm, Nat.succ_pos n⟩ hwants
      rw [hnone]
      exact iff_of_false nofun (not_or.mpr ⟨nofun, ha⟩)

/-- **There is a machine if there was one, or if some action has reset the emulator.** -/
theorem isSome_machine_afterAll (emu : Emulator) (actions : List Action) :
    (emu.afterAll actions).machine.isSome ↔ emu.machine.isSome ∨
      ∃ before a after, actions = before ++ a :: after ∧ a.Resets (emu.afterAll before) := by
  induction actions generalizing emu with
  | nil =>
    refine (or_iff_left ?_).symm
    rintro ⟨before, a, after, h, -⟩
    exact List.append_ne_nil_of_right_ne_nil before (List.cons_ne_nil a after) h.symm
  | cons a rest ih =>
    rw [afterAll, List.foldl_cons, ← afterAll, ih, isSome_machine_perform, or_assoc]
    refine or_congr_right ⟨?_, ?_⟩
    · rintro (ha | ⟨before, b, after, rfl, hb⟩)
      · exact ⟨[], a, rest, rfl, ha⟩
      · exact ⟨a :: before, b, after, rfl, hb⟩
    · rintro ⟨before, b, after, h, hb⟩
      rcases List.cons_eq_append_iff.mp h with ⟨rfl, h⟩ | ⟨before, rfl, rfl⟩
      · cases h
        exact Or.inl hb
      · exact Or.inr ⟨before, b, after, rfl, hb⟩

/-- While nothing resets an emulator, there is a machine if there was one. -/
theorem Undisturbed.isSome_machine {emu : Emulator} {actions : List Action}
    (hu : emu.Undisturbed actions) :
    (emu.afterAll actions).machine.isSome ↔ emu.machine.isSome := by
  induction actions generalizing emu with
  | nil => exact Iff.rfl
  | cons a rest ih => exact (ih hu.2).trans ((isSome_machine_perform emu a).trans (or_iff_left hu.1))

/-- A session in which something resets the emulator can be cut where that happens last. -/
theorem undisturbed_or_exists_last (emu : Emulator) (actions : List Action) :
    emu.Undisturbed actions ∨
      ∃ before a after, actions = before ++ a :: after ∧ a.Resets (emu.afterAll before) ∧
        (emu.afterAll (before ++ [a])).Undisturbed after := by
  induction actions generalizing emu with
  | nil => exact Or.inl trivial
  | cons a rest ih =>
    rcases ih (a.perform emu) with hu | ⟨before, b, after, rfl, hb, hu⟩
    · by_cases ha : a.Resets emu
      · exact Or.inr ⟨[], a, rest, rfl, ha, hu⟩
      · exact Or.inl ⟨ha, hu⟩
    · exact Or.inr ⟨a :: before, b, after, rfl, hb, hu⟩

end Emulator

open Emulator

/-- **The machine of an emulator is the one its last successful reset has built**, and has executed since
what the session made it execute.

* After whatever session there is a machine exactly if some reset has succeeded: one that was asked for,
  or the one that the first tick or run began with.
* Let `a` be the last action that has reset the emulator.  Then the machine is the one that was built from
  the setup as it was at that time, attended since, beginning with the console as it was, rewound.  It has
  advanced by the ticks that succeeded, and both counters of the console, whose streams may have been
  changed, are the numbers of `.` and `,` among them.  In all of this the emulator before `a` appears only
  with its setup and its streams.
* If a reset fails, the action that began with it changes nothing.  A run still says in the log how it
  ended, and flushes. -/
theorem attended_since_reset (actions : List Action) :
    let emu := afterAll {} actions
    (emu.machine.isSome ↔
      ∃ before a after, actions = before ++ a :: after ∧ a.Resets (afterAll {} before)) ∧
    (emu.machine.isSome → ∃ before a after m₀ s,
      actions = before ++ a :: after ∧ a.Resets (afterAll {} before) ∧
        (afterAll {} (before ++ [a])).Undisturbed after ∧
      build (afterAll {} before).setup.program (afterAll {} before).setup.dataLength
        (afterAll {} before).setup.options = .ok m₀ ∧
      s = Attended.afterAll ⟨m₀, (afterAll {} before).console.rewind, []⟩ (a :: after) ∧
      emu.machine = some s.machine ∧ emu.console = s.console ∧
      m₀.Advances s.deeds s.machine ∧ s.machine.ticks = s.deeds.length ∧
      emu.console.sent = Deed.count .output s.deeds ∧
      emu.console.received = Deed.count .input s.deeds) ∧
    ∀ (a : Action) (e : Error), a.WantsReset emu → emu.reset.1 = .error e →
      (a.perform emu).machine = emu.machine ∧
      (a.perform emu).console.sent = emu.console.sent ∧
      (a.perform emu).console.received = emu.console.received ∧
      ((∀ n, a ≠ .run n) → a.perform emu = emu) ∧
      ∀ n, a = .run n → (a.perform emu).log = (emu.recordStop e).log := by
  refine ⟨?_, fun hsome ↦ ?_, fun a e hwants he ↦ hwants.perform_of_error he⟩
  · rw [isSome_machine_afterAll]
    exact or_iff_right nofun
  · rcases undisturbed_or_exists_last {} actions with hu | ⟨before, a, after, rfl, ha, hu⟩
    · cases hu.isSome_machine.mp hsome
    · obtain ⟨m₀, hb, hholds⟩ := ha.holds_perform
      obtain ⟨hmachine, hconsole⟩ : (afterAll {} (before ++ a :: after)).Holds
          (Attended.afterAll ⟨m₀, (afterAll {} before).console.rewind, []⟩ (a :: after)) := by
        have hrest := hu
        rw [afterAll, List.foldl_append] at hrest ⊢
        exact hrest.holds hholds
      have haccounts :=
        (Attended.accounts_build hb (afterAll {} before).console).afterAll (a :: after)
      exact ⟨before, a, after, m₀, _, rfl, ha, hu, hb, rfl, hmachine, hconsole, haccounts.advances,
        haccounts.ticks, hconsole ▸ haccounts.sent, hconsole ▸ haccounts.received⟩

/-- A run without data cells, which fails; a tick of the program `,..`, which builds a machine for it;
options for which a reset fails; and a run of the rest of the program on other streams. -/
theorem attended_since_reset_other_streams :
    ∃ (emu : Emulator) (m₀ m : Machine) (ds : List Deed),
      emu = afterAll {} [.setDataLength 0, .run 5, .setDataLength 1, .setProgram [0x2c, 0x2e, 0x2e],
        .attach (some { rest := [0x41] }) none, .tick, .setOptions { extend := -1 }, .reset,
        .attach none (some (.direct {})), .run 5] ∧
      emu.machine = some m ∧ m₀.Advances ds m ∧ ds.length = 3 ∧
      Deed.count .output ds = 2 ∧ Deed.count .input ds = 1 ∧
      emu.reset.1 = .error Condition.extendInvalid ∧
      (Action.reset.perform emu).machine = emu.machine := by
  obtain ⟨-, hmachine, hfailed⟩ := attended_since_reset [.setDataLength 0, .run 5, .setDataLength 1,
    .setProgram [0x2c, 0x2e, 0x2e], .attach (some { rest := [0x41] }) none, .tick,
    .setOptions { extend := -1 }, .reset, .attach none (some (.direct {})), .run 5]
  obtain ⟨-, -, -, m₀, s, -, -, -, -, -, hm, -, hadvances, hticks, hsent, hreceived⟩ := hmachine rfl
  have hthree : s.machine.ticks = 3 := congrArg (fun m : Option Machine ↦ (m.map ticks).getD 0) hm.symm
  exact ⟨_, m₀, s.machine, s.deeds, rfl, hm, hadvances, hticks.symm.trans hthree, hsent.symm,
    hreceived.symm, rfl, (hfailed .reset Condition.extendInvalid trivial rfl).1⟩

end TapeMachine
