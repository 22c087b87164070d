import TapeMachine.Proofs.Machine.TickLimit
import TapeMachine.Proofs.Machine.TwoPass
import TapeMachine.Proofs.Tape.Strays

/-!
# Jumps from stray brackets

What a machine does at a bracket of its program that has no partner there is not left open.  The bracket is
not in the jump table, so the tape is scanned, and what a scan from a stray bracket can find was worked out
for tapes.  What has to be added is what a machine can have on its tape when it comes there.

A machine that is only ever ticked still has its program and its options, and at level zero nothing has been
stored, so that the storage cell is zero and not a `[`.  This is the invariant `Steady`.
-/

set_option autoImplicit false
namespace TapeMachine

open Operator (loopByte againByte)
open Machine

variable {σ : Type} [Channel σ]

/-! ## Ticks alone -/

/-- The machines that `m₀` becomes by ticking, on whatever state the channel is in. -/
inductive Ticked (σ : Type) [Channel σ] (m₀ : Machine) : Machine → Prop
  | start : Ticked σ m₀ m₀
  | tick {m : Machine} (h : Ticked σ m₀ m) (c : σ) : Ticked σ m₀ (m.tick c).machine

namespace Machine

/-- What is still true of a machine that was only ticked since it was built. -/
structure Steady (program : List UInt8) (options : Options) (m : Machine) : Prop where
  sound : m.Sound
  code : m.tape.code = program
  options_eq : m.options = options
  storage : options.extend = 0 → m.tape.storage = 0

theorem steady_fresh (program : List UInt8) {dataLength : Int} (hd : 1 ≤ dataLength)
    (hsize : IsWord (1 + program.length + dataLength)) (options : Options) :
    (fresh program dataLength options).Steady program options where
  sound := sound_fresh program hd hsize options
  code := (intact_fresh program hd options).code
  options_eq := rfl
  storage _ := Tape.storage_ofProgram program dataLength

/-- At level zero, the storage cell is not written. -/
theorem storage_tick {m : Machine} (hm : m.Placed) (he : m.options.extend = 0) (c : σ) :
    (m.tick c).machine.tape.storage = m.tape.storage := by
  obtain ⟨i, hi, htouched⟩ := exists_touched_tick hm c
  have hstart := m.tape.one_le_dataStart
  have hptr := (placed_iff.mp hm).1
  have hget := htouched.get? (show ((0 : Nat) : Int) ≠ i by omega)
  rw [Tape.get?_natCast, Tape.get?_natCast, Tape.getElem?_zero_bytes, Tape.getElem?_zero_bytes] at hget
  exact Option.some.inj hget

theorem Steady.tick {program : List UInt8} {options : Options} {m : Machine}
    (h : m.Steady program options) (c : σ) : (m.tick c).machine.Steady program options where
  sound := h.sound.tick c
  code := by
    obtain ⟨i, -, htouched⟩ := exists_touched_tick h.sound.placed c
    exact htouched.code.trans h.code
  options_eq := (m.options_tick c).trans h.options_eq
  storage he := by
    rw [storage_tick h.sound.placed (by rw [h.options_eq, he])]
    exact h.storage he

end Machine

theorem Ticked.steady {program : List UInt8} {options : Options} {m₀ m : Machine} (h : Ticked σ m₀ m)
    (h₀ : m₀.Steady program options) : m.Steady program options := by
  induction h with
  | start => exact h₀
  | tick _ c ih => exact ih.tick c

/-! ## Jumps -/

namespace Machine

section Jump

variable {m : Machine}

/-- A bracket of the program that jumps, on a machine whose jump table fits the program. -/
theorem Sound.tick_jump (h : m.Sound) (hr : m.isRunning = true) (hl : m.atTickLimit = false) {k : Nat}
    (hip : m.ip = ((k + 1 : Nat) : Int)) {d : Direction}
    (hbyte : m.tape.code[k]? = some d.operator.toByte) {v : UInt8} (hcell : m.cell? = some v)
    (htakes : d.takes v = true) (c : σ) :
    m.tick c = (m.land c (d.scan m.tape ((k + 1 : Nat) : Int))).conclude m.ip d.operator := by
  have hop : m.opcode = d.operator := by
    refine Direction.opcode ?_
    rw [hip, Tape.get?_of_code hbyte, Option.getD_some]
  rw [tick_of_running hr hl, hop, execute_bracket hcell, if_pos htakes, jump_eq_land,
    partner_eq_scan (Or.inr h) hop, hip]

omit [Channel σ] in
/-- A machine that has jumped goes on behind the bracket it has jumped to. -/
theorem conclude_land_found (h : IsWord m.tape.size) {j : Nat} (hj : j < m.tape.size) (c : σ) (ip : Int)
    (op : Operator) : (m.land c (.found j)).conclude ip op =
      ⟨{ m with ip := ((j + 1 : Nat) : Int), ticks := m.ticks + 1 }, c,
        .ok (!({ m with ip := ((j + 1 : Nat) : Int), ticks := m.ticks + 1 } : Machine).isRunning)⟩ := by
  rw [← Tape.wrap_succ h hj]
  rfl

omit [Channel σ] in
/-- A machine that is running would also be running further up. -/
theorem isRunning_of_ip_le (hr : m.isRunning = true) {i : Int} (hi : i ≤ m.ip) (n : Nat) :
    ({ m with ip := i, ticks := n } : Machine).isRunning = true := by
  rw [isRunning] at hr ⊢
  split at hr
  · rename_i he
    rw [if_pos he]
    simp only [Bool.and_eq_true, decide_eq_true_eq] at hr ⊢
    exact ⟨hr.1, Int.lt_of_le_of_lt hi hr.2⟩
  · rename_i he
    rw [if_neg he]
    rw [decide_eq_true_eq] at hr ⊢
    exact Int.lt_of_le_of_lt hi hr

omit [Channel σ] in
/-- At level zero, a machine that has left its program has stopped. -/
theorem isRunning_eq_false (he : m.options.extend = 0) {i : Int} (hi : m.tape.dataStart ≤ i) (n : Nat) :
    ({ m with ip := i, ticks := n } : Machine).isRunning = false := by
  rw [isRunning, if_neg (by simp [he])]
  exact decide_eq_false (Int.not_lt.mpr hi)

end Jump

section Stray

variable {m : Machine} {k : Nat}

/-- A stray `]` on a cell that is not zero: the storage cell is its partner, or it has none. -/
theorem Sound.tick_stray_again (h : m.Sound) (hr : m.isRunning = true) (hl : m.atTickLimit = false)
    (hip : m.ip = ((k + 1 : Nat) : Int)) (hk : Unpaired m.tape.code k)
    (hbyte : m.tape.code[k]? = some againByte) (hcell : m.cell? ≠ some 0) (c : σ) :
    (m.tape.storage = loopByte ∧ NoStrayBefore m.tape.code k →
        m.tick c = ⟨{ m with ip := 1, ticks := m.ticks + 1 }, c, .ok false⟩) ∧
      (¬ (m.tape.storage = loopByte ∧ NoStrayBefore m.tape.code k) →
        m.tick c = ⟨m, c, .error (.fault m.ip .again Condition.bracketUnmatched)⟩) := by
  obtain ⟨v, hv⟩ := h.placed.cell?
  have htakes : Direction.backward.takes v = true := by
    rw [Direction.takes, bne_iff_ne]
    rintro rfl
    exact hcell hv
  obtain ⟨hfound, hnone⟩ := Tape.scanBackward_stray h.isWord hbyte hk
  rw [h.tick_jump hr hl hip (d := .backward) hbyte hv htakes c, Direction.scan]
  refine ⟨fun hfirst ↦ ?_, fun hfirst ↦ ?_⟩
  · have hrunning := isRunning_of_ip_le hr (show ((0 + 1 : Nat) : Int) ≤ m.ip by omega) (m.ticks + 1)
    rw [hfound hfirst, conclude_land_found h.isWord m.tape.bytes_size_pos, hrunning]
    rfl
  · obtain ⟨i, hscan⟩ := hnone hfirst
    rw [hscan]
    rfl

/-- A stray `[` on a cell that is zero: its partner is in the data, or it has none. -/
theorem Sound.tick_stray_loop (h : m.Sound) (hr : m.isRunning = true) (hl : m.atTickLimit = false)
    (hip : m.ip = ((k + 1 : Nat) : Int)) (hk : Unpaired m.tape.code k)
    (hbyte : m.tape.code[k]? = some loopByte) (hcell : m.cell? = some 0) (c : σ) :
    ((∀ j, ¬ Partners m.tape.bytes.toList (k + 1) j) ∧
        m.tick c = ⟨m, c, .error (.fault m.ip .loop Condition.bracketUnmatched)⟩) ∨
      ∃ j stopped, Partners m.tape.bytes.toList (k + 1) j ∧
        (m.tape.dataStart ≤ j ∧ j < m.tape.size ∧ m.tape.get? j = some againByte) ∧
        m.tick c = ⟨{ m with ip := ((j + 1 : Nat) : Int), ticks := m.ticks + 1 }, c, .ok stopped⟩ ∧
        (m.options.extend = 0 → stopped = true) := by
  rw [h.tick_jump hr hl hip (d := .forward) hbyte hcell rfl c, Direction.scan]
  rcases Tape.scanForward_stray h.isWord hbyte hk with
    ⟨j, hscan, hp, hstart, hj, hclose⟩ | ⟨⟨i, hscan⟩, hnone⟩
  · rw [hscan, conclude_land_found h.isWord hj]
    refine Or.inr ⟨j, _, hp, ⟨hstart, hj, hclose⟩, rfl, fun he ↦ ?_⟩
    rw [isRunning_eq_false he (by omega), Bool.not_false]
  · rw [hscan]
    exact Or.inl ⟨hnone, rfl⟩

end Stray
end Machine

/-- **What a machine does at a stray bracket.**  Take any machine that was built and then only ticked, as long
as it runs and has ticks left, on a bracket of its program that has no partner in the program.

* If it is a `]` and the cell is not zero: if the storage cell holds a `[` and this is the first `]` of the
  program without a partner, the machine goes on at the beginning of the program.  Otherwise the tick fails,
  and at level zero it always does.
* If it is a `[` and the cell is zero: if there is a `]` in the data that is its partner on the tape, the
  machine goes on behind it, and at level zero it has thereby stopped.  Otherwise the tick fails.

A tick that fails changes nothing.  The length of the tape is taken to be a word. -/
theorem tick_of_unpaired {program : List UInt8} {dataLength : Int} {options : Options} {m₀ m : Machine}
    (hb : build program dataLength options = .ok m₀)
    (hsize : IsWord (1 + program.length + dataLength)) (ht : Ticked σ m₀ m)
    (hr : m.isRunning = true) (hl : m.atTickLimit = false) {k : Nat} (hip : m.ip = ((k + 1 : Nat) : Int))
    (hk : Unpaired program k) (c : σ) :
    (program[k]? = some againByte → m.cell? ≠ some 0 →
      (m.tape.storage = loopByte ∧ NoStrayBefore program k →
          m.tick c = ⟨{ m with ip := 1, ticks := m.ticks + 1 }, c, .ok false⟩) ∧
        (¬ (m.tape.storage = loopByte ∧ NoStrayBefore program k) →
          m.tick c = ⟨m, c, .error (.fault m.ip .again Condition.bracketUnmatched)⟩) ∧
        (options.extend = 0 →
          m.tick c = ⟨m, c, .error (.fault m.ip .again Condition.bracketUnmatched)⟩)) ∧
    (program[k]? = some loopByte → m.cell? = some 0 →
      ((∀ j, ¬ Partners m.tape.bytes.toList (k + 1) j) ∧
          m.tick c = ⟨m, c, .error (.fault m.ip .loop Condition.bracketUnmatched)⟩) ∨
        ∃ j stopped, Partners m.tape.bytes.toList (k + 1) j ∧
          (m.tape.dataStart ≤ j ∧ j < m.tape.size ∧ m.tape.get? j = some againByte) ∧
          m.tick c = ⟨{ m with ip := ((j + 1 : Nat) : Int), ticks := m.ticks + 1 }, c, .ok stopped⟩ ∧
          (options.extend = 0 → stopped = true)) := by
  obtain ⟨-, hd, rfl⟩ := build_eq_ok_iff.mp hb
  obtain ⟨hsound, rfl, rfl, hstorage⟩ := ht.steady (steady_fresh program hd hsize options)
  refine ⟨fun hbyte hcell ↦ ?_, fun hbyte hcell ↦ hsound.tick_stray_loop hr hl hip hk hbyte hcell c⟩
  obtain ⟨hfirst, hother⟩ := hsound.tick_stray_again hr hl hip hk hbyte hcell c
  refine ⟨hfirst, hother, fun he ↦ hother fun h ↦ ?_⟩
  rw [hstorage he] at h
  exact absurd h.1 (by decide)

/-- The program `,$]` at level one, after it has read a `[` and stored it: the stray `]` leads back to the
beginning. -/
theorem tick_of_unpaired_stored :
    let con : Console := { input := some { rest := [0x5b] } }
    let m₀ := fresh [0x2c, 0x24, 0x5d] 1 { extend := 1 }
    let m₁ : Machine := { m₀ with tape := m₀.tape.put 4 0x5b, ip := 2, ticks := 1 }
    let m₂ : Machine := { m₁ with tape := m₁.tape.put 0 0x5b, ip := 3, ticks := 2 }
    IsWord (1 + ([0x2c, 0x24, 0x5d] : List UInt8).length + 1) ∧ Ticked Console m₀ m₂ ∧
      m₂.isRunning = true ∧ m₂.atTickLimit = false ∧ m₂.ip = ((2 + 1 : Nat) : Int) ∧
      Unpaired [0x2c, 0x24, 0x5d] 2 ∧ m₂.cell? = some 0x5b ∧ m₂.tape.storage = loopByte ∧
      m₂.tick con = ⟨{ m₂ with ip := 1, ticks := 3 }, con, .ok false⟩ := by
  intro con m₀ m₁ m₂
  have hb : build [0x2c, 0x24, 0x5d] 1 { extend := 1 } = .ok m₀ :=
    build_eq_ok_iff.mpr ⟨by decide, by decide, rfl⟩
  have hsize : IsWord (1 + ([0x2c, 0x24, 0x5d] : List UInt8).length + 1) := by decide
  have hread : (m₀.tick con).machine = m₁ := rfl
  have hstored : (m₁.tick con).machine = m₂ := rfl
  have ht : Ticked Console m₀ m₂ := by
    have hticked : Ticked Console m₀ (m₀.tick con).machine := Ticked.start.tick con
    rw [hread] at hticked
    exact hstored ▸ hticked.tick con
  have hk : Unpaired [0x2c, 0x24, 0x5d] 2 := by
    have hother : ([0x2c, 0x24, 0x5d] : List UInt8)[2]? ≠ some loopByte := by decide
    have hnone : ∀ i < 2, ([0x2c, 0x24, 0x5d] : List UInt8)[i]? ≠ some loopByte := by decide
    intro j
    exact ⟨fun hp ↦ hother hp.getElem?_left, fun hp ↦ hnone j hp.lt hp.getElem?_left⟩
  have hfirst : NoStrayBefore [0x2c, 0x24, 0x5d] 2 := by
    have hnone : ∀ i < 2, ([0x2c, 0x24, 0x5d] : List UInt8)[i]? ≠ some againByte := by decide
    exact fun i hi hb ↦ absurd hb (hnone i hi)
  have hcell : m₂.cell? = some 0x5b := rfl
  have hstorage : m₂.tape.storage = loopByte := rfl
  obtain ⟨hagain, -⟩ := tick_of_unpaired hb hsize ht rfl rfl rfl hk con
  obtain ⟨hjump, -⟩ := hagain rfl (by rw [hcell]; decide)
  exact ⟨hsize, ht, rfl, rfl, rfl, hk, hcell, hstorage, hjump ⟨hstorage, hfirst⟩⟩

end TapeMachine
