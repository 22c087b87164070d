import TapeMachine.Proofs.Machine.Faults
import TapeMachine.Proofs.Machine.Precompute
import TapeMachine.Proofs.Tape.Reads

/-!
# A machine never asks for a byte that is not there

Whoever holds a machine may put its code pointer anywhere, off the tape or at its very ends, and then let
it tick.  A scan that sets out from beyond the tape would ask for a byte outside it.  No tick comes to
that, because an operator is only executed where it was found: off the tape there is nothing to fetch, and
nothing is what gets executed (`exists_ip_of_opcode`).  So a bracket that is executed stands on the tape,
and so does its partner (`Sound.partner_on_tape`); and the data pointer is on a data cell anyway.

If nobody assigns the code pointer, it does not leave the tape either.  It may be moved onto the storage
cell or the last data cell by a jump, but the tick that does so moves on at once, so that between ticks it
lies in `[1, size]`.  This is the invariant `Within`; `Within.tick` is the step, `performAll_invariant`
carries it through a session.
-/

set_option autoImplicit false
namespace TapeMachine

theorem Outcome.ok_ne_offTape {α : Type} (value : α) : ok value ≠ offTape := by
  simp

theorem Outcome.error_ne_offTape {α : Type} (e : Error) : (error e : Outcome α) ≠ offTape := by
  simp

variable {σ : Type}

namespace Machine

/-! ## Where operators are found -/

/-- What is executed was found on the tape. -/
theorem exists_ip_of_opcode {m : Machine} (h : m.opcode ≠ .nop) :
    ∃ i : Nat, m.ip = i ∧ i < m.tape.size := by
  by_cases hi : (m.tape.get? m.ip).isSome = true
  · obtain ⟨hnonneg, hlt⟩ := (m.tape.isSome_get? m.ip).mp hi
    exact ⟨m.ip.toNat, by omega, by omega⟩
  · refine absurd ?_ h
    rw [opcode, Option.not_isSome_iff_eq_none.mp hi]
    rfl

theorem Direction.operator_ne_nop (d : Direction) : d.operator ≠ .nop := by
  cases d <;> exact nofun

/-- Another tick is done only where the tape goes on, and at level zero only in the program. -/
theorem ip_lt_of_isRunning {m : Machine} (h : m.isRunning = true) :
    m.ip < m.tape.size ∧ (m.options.extend ≤ 0 → m.ip < m.tape.dataStart) := by
  have hle : m.tape.dataStart ≤ m.tape.size := m.tape.dataStart_le_size
  rw [isRunning] at h
  split at h
  · simp only [Bool.and_eq_true, decide_eq_true_eq] at h
    exact ⟨h.2, fun hlevel ↦ by omega⟩
  · simp only [decide_eq_true_eq] at h
    exact ⟨by omega, fun _ ↦ h⟩

/-- **The partner of a bracket that is executed is looked for, and found, on the tape.** -/
theorem Sound.partner_on_tape {m : Machine} (h : m.Sound) {d : Direction}
    (hop : m.opcode = d.operator) :
    m.partner d ≠ .offTape ∧ ∀ target, m.partner d = .found target → target < m.tape.size := by
  obtain ⟨i, hip, hi⟩ := exists_ip_of_opcode (hop ▸ d.operator_ne_nop)
  rw [← partner_plain h hop]
  cases d with
  | forward =>
    have hscan : m.plain.partner .forward = m.tape.scanForward i := hip ▸ rfl
    rw [hscan]
    exact Tape.scanForward_on_tape h.isWord hi
  | backward =>
    have hscan : m.plain.partner .backward = m.tape.scanBackward i := hip ▸ rfl
    rw [hscan]
    exact Tape.scanBackward_on_tape h.isWord hi

/-! ## What a tick asks for -/

/-- All bytes that a tick asks for are on the tape. -/
structure OnTape (m : Machine) : Prop where
  /-- There is something to fetch, unless nothing is done. -/
  fetch : m.opcode ≠ .nop → (m.tape.get? m.ip).isSome = true
  cell : (m.tape.get? m.ptrIndex).isSome = true
  storage : (m.tape.get? 0).isSome = true
  forward : m.opcode = .loop → m.tape.askForward m.ip ≠ .offTape
  backward : m.opcode = .again → m.tape.askBackward m.ip ≠ .offTape

theorem Sound.onTape {m : Machine} (h : m.Sound) : m.OnTape where
  fetch hop := by
    obtain ⟨i, hip, hi⟩ := exists_ip_of_opcode hop
    rw [Tape.isSome_get?]
    omega
  cell := by
    obtain ⟨v, hv⟩ := h.placed.cell?
    exact Option.isSome_of_eq_some hv
  storage := by
    have hpos := m.tape.bytes_size_pos
    rw [Tape.isSome_get?]
    exact ⟨Int.le_refl 0, Int.natCast_pos.mpr hpos⟩
  forward hop := by
    obtain ⟨i, hip, hi⟩ := exists_ip_of_opcode (m := m) (by rw [hop]; exact nofun)
    rw [Tape.askForward_eq, hip]
    exact (Tape.scanForward_on_tape h.isWord hi).1
  backward hop := by
    obtain ⟨i, hip, hi⟩ := exists_ip_of_opcode (m := m) (by rw [hop]; exact nofun)
    rw [Tape.askBackward_eq, hip]
    exact (Tape.scanBackward_on_tape h.isWord hi).1

variable [Channel σ]

/-- With the data pointer on a data cell, an operator leaves the code pointer alone and stays on the tape,
unless it is a bracket and jumps. -/
theorem Placed.execute_cases {m : Machine} (h : m.Placed) (op : Operator) (c : σ) :
    ((m.execute op c).machine.ip = m.ip ∧ (m.execute op c).outcome ≠ .offTape) ∨
      ∃ d : Direction, op = d.operator ∧ m.execute op c = m.jump c d := by
  obtain ⟨v, hv⟩ := h.cell?
  have hmap : ∀ (c : σ) (f : UInt8 → UInt8),
      (m.mapCell c f).machine.ip = m.ip ∧ (m.mapCell c f).outcome ≠ .offTape := by
    intro c f
    simp only [mapCell, onCell, hv]
    exact ⟨rfl, Outcome.ok_ne_offTape ()⟩
  cases op with
  | nop | right | left | halt | other b => exact Or.inl ⟨rfl, Outcome.ok_ne_offTape ()⟩
  | inc | dec | load | shl | shr | not | xor | and | or => exact Or.inl (hmap c _)
  | store =>
    simp only [execute, onCell, hv]
    exact Or.inl ⟨rfl, Outcome.ok_ne_offTape ()⟩
  | output =>
    simp only [execute, sendCell, onCell, hv]
    split
    · exact Or.inl ⟨rfl, Outcome.ok_ne_offTape ()⟩
    · exact Or.inl ⟨rfl, Outcome.error_ne_offTape _⟩
  | input =>
    simp only [execute, receiveCell]
    split
    · exact Or.inl (hmap _ _)
    · exact Or.inl ⟨rfl, Outcome.error_ne_offTape _⟩
  | loop =>
    simp only [execute, onCell, hv]
    split
    · exact Or.inr ⟨.forward, rfl, rfl⟩
    · exact Or.inl ⟨rfl, Outcome.ok_ne_offTape ()⟩
  | again =>
    simp only [execute, onCell, hv]
    split
    · exact Or.inl ⟨rfl, Outcome.ok_ne_offTape ()⟩
    · exact Or.inr ⟨.backward, rfl, rfl⟩

/-- The operator at the code pointer asks for no byte outside the tape.  It leaves the code pointer alone,
or it succeeds and moves it to an index of the tape. -/
theorem Sound.execute_opcode {m : Machine} (h : m.Sound) (c : σ) :
    (m.execute m.opcode c).outcome ≠ .offTape ∧
      ((m.execute m.opcode c).machine.ip = m.ip ∨
        ∃ target : Nat, (m.execute m.opcode c).machine.ip = target ∧ target < m.tape.size) := by
  rcases h.placed.execute_cases m.opcode c with ⟨hip, hon⟩ | ⟨d, hop, hjump⟩
  · exact ⟨hon, Or.inl hip⟩
  · obtain ⟨hon, hfound⟩ := h.partner_on_tape hop
    rw [hjump, jump]
    cases hp : m.partner d with
    | found target => exact ⟨Outcome.ok_ne_offTape (), Or.inr ⟨target, rfl, hfound target hp⟩⟩
    | unmatched i => exact ⟨Outcome.error_ne_offTape _, Or.inl rfl⟩
    | offTape => exact absurd hp hon

/-- **No tick asks for a byte outside the tape.** -/
theorem Sound.tick_ne_offTape {m : Machine} (h : m.Sound) (c : σ) :
    (m.tick c).outcome ≠ .offTape := by
  rcases tick_cases m c with ⟨-, ht⟩ | ⟨-, -, ht⟩ | ⟨-, -, ht⟩
  · rw [ht]
    exact Outcome.ok_ne_offTape true
  · rw [ht]
    exact Outcome.error_ne_offTape _
  · have hon := (h.execute_opcode c).1
    rw [ht]
    generalize m.execute m.opcode c = s at hon
    obtain ⟨m', c', o⟩ := s
    cases o with
    | ok => exact Outcome.ok_ne_offTape _
    | error e => exact Outcome.error_ne_offTape _
    | offTape => exact absurd rfl hon

/-- No run ends for want of a byte. -/
theorem Sound.ends_ne_offTape {k : Nat} {m m' : Machine} {c c' : σ} {o : Outcome Unit} (h : m.Sound)
    (hends : Ends k m c m' c' o) : o ≠ .offTape := by
  induction hends with
  | stop => exact Outcome.ok_ne_offTape ()
  | error => exact Outcome.error_ne_offTape _
  | offTape ht => exact absurd (congrArg Step.outcome ht) (h.tick_ne_offTape _)
  | @tick _ m _ _ c _ _ _ _ _ ht _ ih =>
    have hs := h.tick c
    rw [ht] at hs
    exact ih hs

/-! ## Where the code pointer can get by itself -/

/-- The code pointer is on the tape behind the storage cell, or just behind the end. -/
structure Within (m : Machine) : Prop where
  sound : m.Sound
  one_le : 1 ≤ m.ip
  le_size : m.ip ≤ m.tape.size

theorem Within.tick {m : Machine} (h : m.Within) (c : σ) : (m.tick c).machine.Within := by
  have hs := h.sound.tick c
  have hon := h.sound.tick_ne_offTape c
  obtain ⟨⟨m', c', o⟩, ht⟩ : ∃ s, m.tick c = s := ⟨_, rfl⟩
  rw [ht] at hs hon ⊢
  cases o with
  | offTape => exact absurd rfl hon
  | error e =>
    obtain ⟨-, rfl, -⟩ := tick_error_cases ht
    exact h
  | ok stopped =>
    rcases tick_ok_cases ht with ⟨-, rfl⟩ | ⟨hr, m₁, hx, rfl⟩
    · exact h
    · obtain ⟨j, -, htouched⟩ := exists_touched_execute h.sound.placed m.opcode c
      have hmoved := (h.sound.execute_opcode c).2
      rw [hx] at hmoved htouched
      -- whether it was moved or not, the code pointer is at an index of the tape
      have hip : 0 ≤ m₁.ip ∧ m₁.ip < m.tape.size := by
        rcases hmoved with hip | ⟨target, hip, htarget⟩
        · rw [show m₁.ip = m.ip from hip]
          exact ⟨Int.le_trans Int.one_nonneg h.one_le, (ip_lt_of_isRunning hr).1⟩
        · rw [show m₁.ip = target from hip]
          exact ⟨Int.natCast_nonneg _, Int.ofNat_lt.mpr htarget⟩
      have hsize : m₁.advance.tape.size = m.tape.size := htouched.size
      have hwrap : m₁.advance.ip = m₁.ip + 1 := by
        have hword := h.sound.isWord
        refine wrap_eq_self ?_
        simp only [IsWord] at *
        omega
      refine ⟨hs, ?_, ?_⟩
      · show 1 ≤ m₁.advance.ip
        omega
      · show m₁.advance.ip ≤ m₁.advance.tape.size
        omega

end Machine

/-! ## Sessions -/

section Session

variable [Channel σ]

/-- What each of some operations preserves, all of them in turn preserve. -/
theorem performAll_invariant {P : Machine → Prop} (ops : List Operation)
    (hop : ∀ op ∈ ops, ∀ (m : Machine) (c : σ), P m → P (op.perform m c).machine) {m : Machine}
    (h : P m) (c : σ) : P (performAll m c ops).machine := by
  induction ops generalizing m c with
  | nil => exact h
  | cons op ops ih =>
    exact ih (fun op' hmem ↦ hop op' (List.mem_cons_of_mem op hmem))
      (hop op List.mem_cons_self m c h) _

open Machine

/-- The tape stays as long as it is, whatever is done. -/
theorem Operation.size_perform (op : Operation) {m : Machine} (hm : m.Placed) (c : σ) :
    (op.perform m c).machine.tape.size = m.tape.size :=
  (op.perform_invariant (P := fun m' ↦ m'.Placed ∧ m'.tape.size = m.tape.size) And.left
    (fun h ht ↦ ⟨ht.placed, ht.size.trans h.2⟩) ⟨hm, rfl⟩ c).2

/-- No operation but an assignment takes the code pointer off the tape. -/
theorem Operation.within_perform {op : Operation} (hop : ∀ v, op ≠ .setIp v) {m : Machine}
    (h : m.Within) (c : σ) : (op.perform m c).machine.Within := by
  have hs : (op.perform m c).machine.Sound := op.perform_invariant Sound.placed Sound.touched h.sound c
  have hsize := op.size_perform h.sound.placed c
  have hkept : (op.perform m c).machine.ip = m.ip → (op.perform m c).machine.Within := by
    intro hip
    refine ⟨hs, ?_, ?_⟩
    · rw [hip]
      exact h.one_le
    · rw [hip, hsize]
      exact h.le_size
  cases op with
  | tick => exact h.tick c
  | run n => exact runFor_invariant (fun m c h ↦ h.tick c) n m c h
  | changeCell change =>
    refine hkept ?_
    simp only [Operation.perform, Machine.changeCell]
    split <;> rfl
  | changePtr change =>
    refine hkept ?_
    simp only [Operation.perform, Machine.changePtr]
    split <;> rfl
  | setIp v => exact absurd rfl (hop v)
  | setStorage | setCell | setExtend | setTickLimit => exact hkept rfl

theorem within_fresh (program : List UInt8) {dataLength : Int} (hd : 1 ≤ dataLength)
    (hsize : IsWord (1 + program.length + dataLength)) (options : Options) :
    (fresh program dataLength options).Within := by
  refine ⟨sound_fresh program hd hsize options, Int.le_refl 1, ?_⟩
  have hpos := (fresh program dataLength options).tape.bytes_size_pos
  exact Int.ofNat_le.mpr hpos

/-- **No session makes a machine ask for a byte outside its tape.**  After any operations, with the code
pointer, the extend level and the tick limit assigned to whatever was liked, all that one more tick asks
for is on the tape, and it does not fail for want of a byte.

If the code pointer was never assigned, it lies behind the storage cell and at most one behind the end of
the tape; and a machine that is running executes an operator that was fetched from the tape behind the
storage cell, and at level zero from the program.  The length of the tape is taken to be a word. -/
theorem performAll_onTape {program : List UInt8} {dataLength : Int} {options : Options} {m₀ : Machine}
    (hb : build program dataLength options = .ok m₀)
    (hsize : IsWord (1 + program.length + dataLength)) (c : σ) (ops : List Operation) :
    let m := (performAll m₀ c ops).machine
    m.OnTape ∧ (∀ c' : σ, (m.tick c').outcome ≠ .offTape) ∧
      ((∀ v, Operation.setIp v ∉ ops) →
        1 ≤ m.ip ∧ m.ip ≤ m.tape.size ∧
          (m.isRunning = true →
            m.ip < m.tape.size ∧ (m.options.extend = 0 → m.ip < m.tape.dataStart))) := by
  intro m
  obtain ⟨-, hd, rfl⟩ := build_eq_ok_iff.mp hb
  have hsound : m.Sound := performAll_invariant (P := Sound) ops
    (fun op _ m c h ↦ op.perform_invariant Sound.placed Sound.touched h c)
    (sound_fresh program hd hsize options) c
  refine ⟨hsound.onTape, hsound.tick_ne_offTape, fun hops ↦ ?_⟩
  have hwithin : m.Within := performAll_invariant (P := Within) ops
    (fun op hmem m c h ↦ Operation.within_perform (fun v hv ↦ hops v (hv ▸ hmem)) h c)
    (within_fresh program hd hsize options) c
  refine ⟨hwithin.one_le, hwithin.le_size, fun hr ↦ ?_⟩
  obtain ⟨hlt, hlevel⟩ := ip_lt_of_isRunning hr
  exact ⟨hlt, fun he ↦ hlevel (Int.le_of_eq he)⟩

/-- The program `+]` at level one, with a `[` in the storage cell: the jump leads there, and the tick that
takes it moves on to the program. -/
theorem performAll_onTape_storage :
    ∃ m₀ m : Machine, build [0x2b, 0x5d] 1 { extend := 1 } = .ok m₀ ∧
      m = (performAll m₀ (none : Option Console) [.setStorage 0x5b, .tick, .tick]).machine ∧
      m.ticks = 2 ∧ m.ip = 1 ∧ m.OnTape ∧ (m.tick (none : Option Console)).outcome ≠ .offTape ∧
      m.ip < m.tape.size := by
  have hb : build [0x2b, 0x5d] 1 { extend := 1 } = .ok (fresh [0x2b, 0x5d] 1 { extend := 1 }) :=
    build_eq_ok_iff.mpr ⟨by decide, by decide, rfl⟩
  obtain ⟨hon, htick, hip⟩ := performAll_onTape hb (by decide) (none : Option Console)
    [.setStorage 0x5b, .tick, .tick]
  obtain ⟨-, -, hrunning⟩ := hip (by simp)
  exact ⟨_, _, hb, rfl, rfl, rfl, hon, htick none, (hrunning rfl).1⟩

end Session
end TapeMachine
