import TapeMachine.Proofs.Machine.Run
import TapeMachine.Proofs.Tape.Layout

/-!
# Which bytes a machine can reach

Storage, program and data share one array, and nothing but the data pointer keeps a machine from writing
into its own program.  The safety of the program therefore comes down to one fact about the data pointer:
it is always `Placed` on a data cell.

`Touched i m m'` collects what any single operation can do to a machine.  It writes at most the byte at
index `i`, which lies outside the code region; it leaves the data pointer on a data cell; and it keeps the
jump table.  One lemma for each operation says which index that is (`exists_touched_execute`,
`exists_touched_tick`), and every invariant is derived from `Touched` alone, without looking at the
operators again.

The invariant itself is `Intact`: the program is the one the machine was built with, the data region has
the length it was built with, and the data pointer is on a data cell.
-/

set_option autoImplicit false
namespace TapeMachine
namespace Machine

variable {σ : Type}

/-! ## The data pointer -/

/-- The data pointer is on a data cell. -/
def Placed (m : Machine) : Prop :=
  0 ≤ m.ptr.offset ∧ m.ptr.offset < m.tape.dataLength

theorem Placed.exists_offset {m : Machine} (h : m.Placed) :
    ∃ k : Nat, m.ptr = ⟨k⟩ ∧ k < m.tape.data.length := by
  obtain ⟨k, hk⟩ := Int.eq_ofNat_of_zero_le h.1
  refine ⟨k, ?_, ?_⟩
  · rw [← hk]
  · rw [Tape.length_data]
    have h2 := h.2
    omega

/-- In terms of tape indices: from the start of the data region to the end of the tape. -/
theorem placed_iff {m : Machine} :
    m.Placed ↔ m.tape.dataStart ≤ m.ptrIndex ∧ m.ptrIndex ≤ (m.tape.size : Int) - 1 := by
  have h : m.tape.dataStart ≤ m.tape.size := m.tape.dataStart_le_size
  simp only [Placed, ptrIndex, Tape.index, Tape.dataLength]
  omega

theorem Placed.cell? {m : Machine} (h : m.Placed) : ∃ v, m.cell? = some v := by
  obtain ⟨k, hk, hlt⟩ := h.exists_offset
  refine ⟨m.tape.data[k], ?_⟩
  rw [Machine.cell?, hk, Tape.cell?_natCast, List.getElem?_eq_getElem hlt]

/-- Moving the data pointer, in whatever way and however far, leaves it on a data cell. -/
theorem Placed.changePtr {m : Machine} (h : m.Placed) (c : Change Int) : (m.changePtr c).Placed := by
  have hpos : 0 < m.tape.dataLength := by
    have h1 := h.1
    have h2 := h.2
    omega
  -- an address that is handed out is on a data cell, and so is what stands in for it
  have haddr : ∀ (i : Int) (a : Tape.Address), 0 ≤ a.offset ∧ a.offset < m.tape.dataLength →
      ({ m with ptr := (m.tape.address? i).getD a } : Machine).Placed := by
    intro i a ha
    simp only [Placed, Tape.address?, Tape.dataLength] at *
    split
    · simp only [Option.getD_some]
      omega
    · exact ha
  cases hmode : c.mode with
  | add =>
    simp only [Machine.changePtr, hmode]
    exact haddr _ _ (by simp only [Tape.firstData]; omega)
  | sub =>
    simp only [Machine.changePtr, hmode]
    exact haddr _ _ (by simp only [Tape.lastData]; omega)
  | set =>
    simp only [Machine.changePtr, hmode]
    exact haddr _ _ h
  | unknown tag =>
    simp only [Machine.changePtr, hmode]
    exact h

/-! ## What one operation can do -/

/-- All that an operation can do to what a machine remembers: it writes at most the byte at index `i`. -/
structure Touched (i : Int) (m m' : Machine) : Prop where
  /-- Only the byte at `i` is written. -/
  tape : ∃ v, m'.tape = m.tape.put i v
  /-- It is not a byte of the program. -/
  outside : i < 1 ∨ m.tape.dataStart ≤ i
  placed : m'.Placed
  jumps : m'.jumps = m.jumps

theorem Touched.dataStart {i : Int} {m m' : Machine} (h : Touched i m m') :
    m'.tape.dataStart = m.tape.dataStart := by
  obtain ⟨v, hv⟩ := h.tape
  rw [hv, Tape.dataStart_put]

theorem Touched.size {i : Int} {m m' : Machine} (h : Touched i m m') :
    m'.tape.size = m.tape.size := by
  obtain ⟨v, hv⟩ := h.tape
  rw [hv, Tape.size_put]

theorem Touched.code {i : Int} {m m' : Machine} (h : Touched i m m') :
    m'.tape.code = m.tape.code := by
  obtain ⟨v, hv⟩ := h.tape
  rw [hv, Tape.code_put _ _ _ h.outside]

theorem Touched.dataLength {i : Int} {m m' : Machine} (h : Touched i m m') :
    m'.tape.dataLength = m.tape.dataLength := by
  rw [Tape.dataLength, Tape.dataLength, h.size, h.dataStart]

theorem Touched.get? {i : Int} {m m' : Machine} (h : Touched i m m') {j : Int} (hj : j ≠ i) :
    m'.tape.get? j = m.tape.get? j := by
  obtain ⟨v, hv⟩ := h.tape
  rw [hv, Tape.get?_put, if_neg hj.symm]

/-- Moving the code pointer and counting make no difference. -/
theorem Touched.advance {i : Int} {m m' : Machine} (h : Touched i m m') : Touched i m m'.advance :=
  ⟨h.tape, h.outside, h.placed, h.jumps⟩

/-- An operation that writes nothing writes the cell under the data pointer back. -/
theorem touched_of_tape_eq {m m' : Machine} (hm : m.Placed) (ht : m'.tape = m.tape)
    (hp : m'.Placed) (hj : m'.jumps = m.jumps) : Touched m.ptrIndex m m' := by
  obtain ⟨v, hv⟩ := hm.cell?
  exact ⟨⟨v, ht.trans (Tape.put_of_get? hv).symm⟩, Or.inr (placed_iff.mp hm).1, hp, hj⟩

theorem touched_refl {m : Machine} (hm : m.Placed) : Touched m.ptrIndex m m :=
  touched_of_tape_eq hm rfl hm rfl

theorem touched_putCell {m : Machine} (hm : m.Placed) (v : UInt8) :
    Touched m.ptrIndex m (m.putCell v) := by
  refine ⟨⟨v, rfl⟩, Or.inr (placed_iff.mp hm).1, ?_, rfl⟩
  rw [placed_iff] at hm ⊢
  simpa [putCell, Tape.setCell, ptrIndex, Tape.index] using hm

theorem touched_putStorage {m : Machine} (hm : m.Placed) (v : UInt8) :
    Touched 0 m (m.putStorage v) := by
  refine ⟨⟨v, rfl⟩, Or.inl (by omega), ?_, rfl⟩
  rw [placed_iff] at hm ⊢
  simpa [putStorage, Tape.setStorage, ptrIndex, Tape.index] using hm

theorem touched_onCell {m : Machine} (hm : m.Placed) {i : Int} (c : σ) {k : UInt8 → Step σ Unit}
    (h : ∀ v, Touched i m (k v).machine) : Touched i m (m.onCell c k).machine := by
  obtain ⟨v, hv⟩ := hm.cell?
  simp only [onCell, hv]
  exact h v

theorem touched_mapCell {m : Machine} (hm : m.Placed) (c : σ) (f : UInt8 → UInt8) :
    Touched m.ptrIndex m (m.mapCell c f).machine :=
  touched_onCell hm c fun v ↦ touched_putCell hm (f v)

theorem touched_jump {m : Machine} (hm : m.Placed) (c : σ) (d : Direction) :
    Touched m.ptrIndex m (m.jump c d).machine := by
  rw [jump]
  split
  · exact touched_of_tape_eq hm rfl hm rfl
  · exact touched_refl hm
  · exact touched_refl hm

variable [Channel σ]

theorem touched_sendCell {m : Machine} (hm : m.Placed) (c : σ) :
    Touched m.ptrIndex m (m.sendCell c).machine := by
  refine touched_onCell hm c fun v ↦ ?_
  split <;> exact touched_refl hm

theorem touched_receiveCell {m : Machine} (hm : m.Placed) (c : σ) :
    Touched m.ptrIndex m (m.receiveCell c).machine := by
  rw [receiveCell]
  split
  · exact touched_mapCell hm _ _
  · exact touched_refl hm

/-- **An operator writes at most one byte**: the cell under the data pointer, or, if it is the one that
stores, the storage cell. -/
theorem exists_touched_execute {m : Machine} (hm : m.Placed) (op : Operator) (c : σ) :
    ∃ i, (i = m.ptrIndex ∨ (op = .store ∧ i = 0)) ∧ Touched i m (m.execute op c).machine := by
  cases op with
  | store => exact ⟨0, Or.inr ⟨rfl, rfl⟩, touched_onCell hm c fun v ↦ touched_putStorage hm v⟩
  | nop => exact ⟨_, Or.inl rfl, touched_refl hm⟩
  | other b => exact ⟨_, Or.inl rfl, touched_refl hm⟩
  | right => exact ⟨_, Or.inl rfl, touched_of_tape_eq hm rfl (hm.changePtr _) rfl⟩
  | left => exact ⟨_, Or.inl rfl, touched_of_tape_eq hm rfl (hm.changePtr _) rfl⟩
  | halt => exact ⟨_, Or.inl rfl, touched_of_tape_eq hm rfl hm rfl⟩
  | output => exact ⟨_, Or.inl rfl, touched_sendCell hm c⟩
  | input => exact ⟨_, Or.inl rfl, touched_receiveCell hm c⟩
  | loop =>
    refine ⟨_, Or.inl rfl, touched_onCell hm c fun v ↦ ?_⟩
    split
    · exact touched_jump hm c .forward
    · exact touched_refl hm
  | again =>
    refine ⟨_, Or.inl rfl, touched_onCell hm c fun v ↦ ?_⟩
    split
    · exact touched_refl hm
    · exact touched_jump hm c .backward
  | inc | dec | load | shl | shr | not | xor | and | or =>
    exact ⟨_, Or.inl rfl, touched_mapCell hm c _⟩

/-- The operator that stores is active only at an extend level of one or more. -/
theorem one_le_extend_of_decode {extend : Int} {b : UInt8}
    (h : Operator.decode extend b = .store) : 1 ≤ extend := by
  rw [Operator.decode] at h
  split at h
  · rename_i hactive
    rw [h] at hactive
    simpa [Operator.cls, Operator.active] using hactive
  · cases h

/-- **A tick writes at most one byte**: the cell under the data pointer, or, at an extend level of one
or more, the storage cell. -/
theorem exists_touched_tick {m : Machine} (hm : m.Placed) (c : σ) :
    ∃ i, (i = m.ptrIndex ∨ (1 ≤ m.options.extend ∧ i = 0)) ∧ Touched i m (m.tick c).machine := by
  rcases tick_cases m c with ⟨-, ht⟩ | ⟨-, -, ht⟩ | ⟨-, -, ht⟩
  · rw [ht]
    exact ⟨_, Or.inl rfl, touched_refl hm⟩
  · rw [ht]
    exact ⟨_, Or.inl rfl, touched_refl hm⟩
  · obtain ⟨i, hi, hx⟩ := exists_touched_execute hm m.opcode c
    refine ⟨i, hi.imp_right fun h ↦ ⟨one_le_extend_of_decode h.1, h.2⟩, ?_⟩
    rw [ht]
    rcases (m.execute m.opcode c).conclude_machine m.ip m.opcode with hc | hc
    · rw [hc]
      exact hx
    · rw [hc]
      exact hx.advance

/-! ## The invariant -/

/-- The regions are as they were when the machine was built, and the data pointer is on a data cell. -/
structure Intact (program : List UInt8) (dataLength : Nat) (m : Machine) : Prop where
  code : m.tape.code = program
  dataLength_eq : m.tape.dataLength = dataLength
  placed : m.Placed

theorem Intact.touched {program : List UInt8} {dataLength : Nat} {m m' : Machine} {i : Int}
    (h : Intact program dataLength m) (ht : Touched i m m') : Intact program dataLength m' :=
  ⟨ht.code.trans h.code, ht.dataLength.trans h.dataLength_eq, ht.placed⟩

theorem Intact.dataStart {program : List UInt8} {dataLength : Nat} {m : Machine}
    (h : Intact program dataLength m) : m.tape.dataStart = 1 + program.length := by
  rw [Tape.dataStart_eq, h.code]

theorem Intact.size {program : List UInt8} {dataLength : Nat} {m : Machine}
    (h : Intact program dataLength m) : m.tape.size = 1 + program.length + dataLength := by
  rw [Tape.size_eq, Tape.length_data, h.code, h.dataLength_eq]

/-! ## A machine that was just built -/

/-- The machine that a successful build gives. -/
def fresh (program : List UInt8) (dataLength : Int) (options : Options) : Machine where
  tape := Tape.ofProgram program dataLength
  ip := 1
  ptr := ⟨0⟩
  ticks := 0
  halted := false
  options := options
  jumps :=
    if options.precompute then some (JumpTable.ofTape (Tape.ofProgram program dataLength)) else none

theorem dataLength_ofProgram (program : List UInt8) (dataLength : Int) :
    (Tape.ofProgram program dataLength).dataLength = dataLength.toNat := by
  rw [← Tape.length_data, Tape.data_ofProgram, List.length_replicate]

/-- A build succeeds when the extend level is not negative and there are data cells. -/
theorem build_eq_ok_iff {program : List UInt8} {dataLength : Int} {options : Options} {m : Machine} :
    build program dataLength options = .ok m ↔
      0 ≤ options.extend ∧ 1 ≤ dataLength ∧ m = fresh program dataLength options := by
  rw [build]
  simp only [dataLength_ofProgram]
  by_cases he : options.extend < 0
  · rw [if_pos he]
    exact ⟨(nomatch ·), fun h ↦ by omega⟩
  · rw [if_neg he]
    by_cases hd : dataLength.toNat = 0
    · rw [if_pos hd]
      exact ⟨(nomatch ·), fun h ↦ by omega⟩
    · rw [if_neg hd]
      constructor
      · rintro ⟨⟩
        exact ⟨by omega, by omega, rfl⟩
      · rintro ⟨-, -, rfl⟩
        rfl

theorem intact_fresh (program : List UInt8) {dataLength : Int} (hd : 1 ≤ dataLength)
    (options : Options) : Intact program dataLength.toNat (fresh program dataLength options) := by
  refine ⟨Tape.code_ofProgram _ _, dataLength_ofProgram _ _, ?_⟩
  simp only [Placed, fresh, dataLength_ofProgram]
  omega

end Machine
end TapeMachine
