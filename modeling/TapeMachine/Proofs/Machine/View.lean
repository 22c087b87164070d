import TapeMachine.Proofs.Machine.Moves
import TapeMachine.Proofs.Machine.Precompute

/-!
# What an operator does, apart from where the program lies

All operators but the brackets do their work without looking at the program, the code pointer or the
count of ticks.  What they do look at is a `View`: the storage cell, the data cells with a position among
them, and whether the machine was halted.  `View.act` says what each operator does to a view, and
`execute_of_shows` that a machine does just that, and leaves the rest of itself alone.

This is what lets two machines with different programs be compared: as long as they show the same view, an
operator has the same effect on both.  A bracket looks at the view as well, to know whether to jump, and
only where it leads depends on the program (`execute_bracket`).

The last section puts this together for a machine without a jump table and without a limit to its ticks.
It has three kinds of ticks: `Bare.tick_act`, `Bare.tick_pass` and `Bare.tick_jump`.
-/

set_option autoImplicit false
namespace TapeMachine

/-! ## Data cells -/

/-- The data cells, and the position of the data pointer among them. -/
@[ext] structure Memory where
  cells : List UInt8
  offset : Nat
  offset_lt : offset < cells.length

namespace Memory

/-- Zeroed cells, with the data pointer on the first. -/
def blank {dataLength : Int} (h : 1 ≤ dataLength) : Memory where
  cells := List.replicate dataLength.toNat 0
  offset := 0
  offset_lt := by rw [List.length_replicate]; omega

/-- The value of the cell under the data pointer. -/
def cell (mem : Memory) : UInt8 :=
  mem.cells.get ⟨mem.offset, mem.offset_lt⟩

/-- Replaces the value of the cell under the data pointer. -/
def write (mem : Memory) (v : UInt8) : Memory where
  cells := mem.cells.set mem.offset v
  offset := mem.offset
  offset_lt := by rw [List.length_set]; exact mem.offset_lt

/-- Moves to the next cell, and from the last one to the first. -/
def right (mem : Memory) : Memory where
  cells := mem.cells
  offset := if mem.offset + 1 < mem.cells.length then mem.offset + 1 else 0
  offset_lt := by
    have h := mem.offset_lt
    split <;> omega

/-- Moves to the previous cell, and from the first one to the last. -/
def left (mem : Memory) : Memory where
  cells := mem.cells
  offset := if mem.offset = 0 then mem.cells.length - 1 else mem.offset - 1
  offset_lt := by
    have h := mem.offset_lt
    split <;> omega

@[simp] theorem write_cell (mem : Memory) : mem.write mem.cell = mem := by
  refine Memory.ext ?_ rfl
  exact List.set_getElem_self mem.offset_lt

@[simp] theorem cell_write (mem : Memory) (v : UInt8) : (mem.write v).cell = v := by
  simp [write, cell]

@[simp] theorem write_write (mem : Memory) (v w : UInt8) : (mem.write v).write w = mem.write w := by
  simp [write]

end Memory

/-! ## Views -/

/-- All of a machine that does not depend on its program. -/
@[ext] structure View where
  storage : UInt8
  memory : Memory
  halted : Bool

namespace View

/-- Replaces the value of the cell under the data pointer. -/
def write (v : View) (b : UInt8) : View :=
  { v with memory := v.memory.write b }

variable {σ : Type} [Channel σ]

/-- What an operator other than a bracket does to a view, to the channel, and what comes of it. -/
def act (op : Operator) (v : View) (c : σ) : View × σ × Except Error Unit :=
  match op with
  | .inc => (v.write (v.memory.cell + 1), c, .ok ())
  | .dec => (v.write (v.memory.cell - 1), c, .ok ())
  | .right => ({ v with memory := v.memory.right }, c, .ok ())
  | .left => ({ v with memory := v.memory.left }, c, .ok ())
  | .output => (v, (Channel.send v.memory.cell c).2, (Channel.send v.memory.cell c).1)
  | .input =>
    match Channel.receive c with
    | (.ok b, c) => (v.write (Machine.stored b), c, .ok ())
    | (.error e, c) => (v, c, .error e)
  | .halt => ({ v with halted := true }, c, .ok ())
  | .store => ({ v with storage := v.memory.cell }, c, .ok ())
  | .load => (v.write v.storage, c, .ok ())
  | .shl => (v.write (v.memory.cell <<< 1), c, .ok ())
  | .shr => (v.write (v.memory.cell >>> 1), c, .ok ())
  | .not => (v.write (~~~v.memory.cell), c, .ok ())
  | .xor => (v.write (v.memory.cell ^^^ v.storage), c, .ok ())
  | .and => (v.write (v.memory.cell &&& v.storage), c, .ok ())
  | .or => (v.write (v.memory.cell ||| v.storage), c, .ok ())
  | .nop | .loop | .again | .other _ => (v, c, .ok ())

end View

/-- An operator that speaks to the channel was answered with an error. -/
def FailedBy (σ : Type) [Channel σ] (op : Operator) (e : Error) : Prop :=
  (op = .output ∧ ∃ (b : UInt8) (c : σ), (Channel.send b c).1 = .error e) ∨
    (op = .input ∧ ∃ c : σ, (Channel.receive c).1 = .error e)

/-- A recording fails only where the channel inside it does. -/
theorem FailedBy.of_recording {σ : Type} [Channel σ] {op : Operator} {e : Error}
    (h : FailedBy (Recording σ) op e) : FailedBy σ op e := by
  rcases h with ⟨hop, b, c, he⟩ | ⟨hop, c, he⟩
  · exact Or.inl ⟨hop, b, c.channel, he⟩
  · exact Or.inr ⟨hop, c.channel, he⟩

/-- Only the channel makes an operator other than a bracket fail, and then nothing has changed. -/
theorem View.failedBy_of_act {σ : Type} [Channel σ] {op : Operator} {v v' : View} {c c' : σ}
    {e : Error} (h : v.act op c = (v', c', .error e)) : v' = v ∧ FailedBy σ op e := by
  cases op with
  | output =>
    simp only [act, Prod.mk.injEq] at h
    obtain ⟨hv, -, he⟩ := h
    exact ⟨hv.symm, Or.inl ⟨rfl, v.memory.cell, c, he⟩⟩
  | input =>
    rw [act] at h
    split at h
    · cases h
    · rename_i e' c₁ hs
      cases h
      exact ⟨rfl, Or.inr ⟨rfl, c, by rw [hs]⟩⟩
  | _ => cases h

/-- What a step reports, where nothing off the tape is asked for. -/
def Outcome.ofExcept : Except Error Unit → Outcome Unit
  | .ok () => .ok ()
  | .error e => .error e

namespace Machine

/-- What a machine shows of itself. -/
structure Shows (m : Machine) (v : View) : Prop where
  storage : m.tape.storage = v.storage
  data : m.tape.data = v.memory.cells
  ptr : m.ptr = ⟨v.memory.offset⟩
  halted : m.halted = v.halted

/-- What of a machine an operator other than a bracket leaves alone. -/
structure Kept (m m' : Machine) : Prop where
  code : m'.tape.code = m.tape.code
  size : m'.tape.size = m.tape.size
  ip : m'.ip = m.ip
  options : m'.options = m.options
  jumps : m'.jumps = m.jumps

theorem Kept.refl (m : Machine) : Kept m m :=
  ⟨rfl, rfl, rfl, rfl, rfl⟩

namespace Shows

variable {m : Machine} {v : View}

theorem unique {w : View} (h : m.Shows v) (h' : m.Shows w) : v = w := by
  refine View.ext (h.storage.symm.trans h'.storage) (Memory.ext (h.data.symm.trans h'.data) ?_)
    (h.halted.symm.trans h'.halted)
  have hptr := congrArg Tape.Address.offset (h.ptr.symm.trans h'.ptr)
  exact Int.ofNat.inj hptr

theorem cell? (h : m.Shows v) : m.cell? = some v.memory.cell := by
  rw [Machine.cell?, h.ptr, Tape.cell?_natCast, h.data]
  exact List.getElem?_eq_getElem v.memory.offset_lt

/-- Only the data and the storage cell of the tape matter. -/
theorem putCell (h : m.Shows v) (b : UInt8) :
    (m.putCell b).Shows (v.write b) ∧ Kept m (m.putCell b) := by
  have ht : (m.putCell b).tape = m.tape.setCell ⟨v.memory.offset⟩ b := by
    rw [Machine.putCell, h.ptr]
  refine ⟨⟨?_, ?_, h.ptr, h.halted⟩, ⟨?_, ?_, rfl, rfl, rfl⟩⟩
  · rw [ht, Tape.storage_setCell]
    exact h.storage
  · rw [ht, Tape.data_setCell, h.data]
    rfl
  · rw [ht, Tape.code_setCell]
  · exact m.tape.size_put _ b

theorem putStorage (h : m.Shows v) (b : UInt8) :
    (m.putStorage b).Shows { v with storage := b } ∧ Kept m (m.putStorage b) := by
  refine ⟨⟨?_, ?_, h.ptr, h.halted⟩, ⟨?_, ?_, rfl, rfl, rfl⟩⟩
  · exact m.tape.storage_setStorage b
  · exact (m.tape.data_setStorage b).trans h.data
  · exact m.tape.code_setStorage b
  · exact m.tape.size_put _ b

/-- The position and the number of the data cells, as they appear in tape indices. -/
theorem ptrIndex (h : m.Shows v) : m.ptrIndex = ((m.tape.dataStart + v.memory.offset : Nat) : Int) := by
  rw [Machine.ptrIndex, h.ptr, Tape.index_natCast]

theorem size (h : m.Shows v) : m.tape.size = m.tape.dataStart + v.memory.cells.length := by
  rw [Tape.size_eq, ← h.data, ← Tape.dataStart_eq]

theorem placed (h : m.Shows v) : m.Placed := by
  have hlt := v.memory.offset_lt
  rw [placed_iff, h.ptrIndex, h.size]
  omega

/-- A move is known by the index at which it ends. -/
theorem changePtr (h : m.Shows v) (hw : IsWord m.tape.size) (mode : ChangeMode) {n : Int}
    (hn : IsWord n) {mem : Memory} (hcells : mem.cells = v.memory.cells)
    (hindex : m.tape.landing m.ptrIndex ⟨mode, n⟩ = ((m.tape.dataStart + mem.offset : Nat) : Int)) :
    (m.changePtr ⟨mode, n⟩).Shows { v with memory := mem } := by
  have hptr := h.placed.ptrIndex_changePtr hw mode hn
  rw [hindex, Machine.ptrIndex, tape_changePtr, Tape.index, Int.natCast_add] at hptr
  rw [changePtr_eq_with]
  exact ⟨h.storage, h.data.trans hcells.symm, congrArg Tape.Address.mk (Int.add_left_cancel hptr),
    h.halted⟩

theorem right (h : m.Shows v) (hw : IsWord m.tape.size) :
    (m.changePtr ⟨.add, 1⟩).Shows { v with memory := v.memory.right } := by
  refine h.changePtr hw .add (by decide) rfl ?_
  have hlt := v.memory.offset_lt
  have hsize := h.size
  simp only [Tape.landing, h.ptrIndex, Memory.right]
  by_cases hnext : v.memory.offset + 1 < v.memory.cells.length
  · rw [if_pos (by simp only [Tape.InData]; omega), if_pos hnext]
    omega
  · rw [if_neg (by simp only [Tape.InData]; omega), if_neg hnext]
    rfl

theorem left (h : m.Shows v) (hw : IsWord m.tape.size) :
    (m.changePtr ⟨.sub, 1⟩).Shows { v with memory := v.memory.left } := by
  refine h.changePtr hw .sub (by decide) rfl ?_
  have hlt := v.memory.offset_lt
  have hsize := h.size
  simp only [Tape.landing, h.ptrIndex, Memory.left]
  by_cases hzero : v.memory.offset = 0
  · rw [if_neg (by simp only [Tape.InData]; omega), if_pos hzero]
    omega
  · rw [if_pos (by simp only [Tape.InData]; omega), if_neg hzero]
    omega

end Shows

variable {σ : Type}

/-! ## Brackets -/

/-- Whether a bracket jumps when it finds this value under the data pointer. -/
def Direction.takes : Direction → UInt8 → Bool
  | .forward, b => b == 0
  | .backward, b => b != 0

/-- The scan in a direction. -/
def Direction.scan : Direction → Tape → Int → Scan
  | .forward => Tape.scanForward
  | .backward => Tape.scanBackward

/-- What becomes of a jump, once it is known where it leads. -/
def land (m : Machine) (c : σ) : Scan → Step σ Unit
  | .found target => ⟨{ m with ip := target }, c, .ok ()⟩
  | .unmatched _ => ⟨m, c, .error Condition.bracketUnmatched⟩
  | .offTape => ⟨m, c, .offTape⟩

theorem jump_eq_land (m : Machine) (c : σ) (d : Direction) :
    m.jump c d = m.land c (m.partner d) := by
  rw [jump]
  cases m.partner d <;> rfl

/-! ## Operators -/

theorem mapCell_of_shows {m : Machine} {v : View} (h : m.Shows v) (c : σ) (f : UInt8 → UInt8) :
    ∃ m', m.mapCell c f = ⟨m', c, .ok ()⟩ ∧ m'.Shows (v.write (f v.memory.cell)) ∧ Kept m m' := by
  obtain ⟨hs, hk⟩ := h.putCell (f v.memory.cell)
  exact ⟨_, by rw [mapCell, onCell, h.cell?], hs, hk⟩

variable [Channel σ]

/-- **An operator other than a bracket does to a machine what it does to its view**, and leaves the program,
the code pointer, the options and the jump table alone. -/
theorem execute_of_shows {m : Machine} {v : View} (h : m.Shows v) (hw : IsWord m.tape.size)
    {op : Operator} (hloop : op ≠ .loop) (hagain : op ≠ .again) (c : σ) :
    ∃ m', m.execute op c = ⟨m', (v.act op c).2.1, .ofExcept (v.act op c).2.2⟩ ∧
      m'.Shows (v.act op c).1 ∧ Kept m m' := by
  cases op with
  | loop => exact absurd rfl hloop
  | again => exact absurd rfl hagain
  | nop => exact ⟨m, rfl, h, .refl m⟩
  | other b => exact ⟨m, rfl, h, .refl m⟩
  | right => exact ⟨_, rfl, h.right hw, ⟨rfl, rfl, rfl, rfl, rfl⟩⟩
  | left => exact ⟨_, rfl, h.left hw, ⟨rfl, rfl, rfl, rfl, rfl⟩⟩
  | halt => exact ⟨_, rfl, ⟨h.storage, h.data, h.ptr, rfl⟩, ⟨rfl, rfl, rfl, rfl, rfl⟩⟩
  | store =>
    obtain ⟨hs, hk⟩ := h.putStorage v.memory.cell
    exact ⟨_, by simp only [execute, onCell, h.cell?]; rfl, hs, hk⟩
  | output =>
    refine ⟨m, ?_, h, .refl m⟩
    simp only [execute, sendCell, onCell, h.cell?, View.act]
    obtain ⟨⟨answer, c'⟩, hs⟩ : ∃ r, Channel.send v.memory.cell c = r := ⟨_, rfl⟩
    rw [hs]
    cases answer <;> rfl
  | input =>
    simp only [execute, receiveCell, View.act]
    obtain ⟨⟨answer, c'⟩, hs⟩ : ∃ r, Channel.receive c = r := ⟨_, rfl⟩
    rw [hs]
    cases answer with
    | ok b => exact mapCell_of_shows h c' fun _ ↦ stored b
    | error e => exact ⟨m, rfl, h, .refl m⟩
  | load | xor | and | or =>
    simp only [execute, h.storage]
    exact mapCell_of_shows h c _
  | inc | dec | shl | shr | not => exact mapCell_of_shows h c _

/-- A bracket looks at the cell only to know whether to jump. -/
theorem execute_bracket {m : Machine} {v : UInt8} (h : m.cell? = some v) (d : Direction) (c : σ) :
    m.execute d.operator c = if d.takes v then m.jump c d else ⟨m, c, .ok ()⟩ := by
  cases d with
  | forward => simp [Direction.operator, execute, onCell, h, Direction.takes]
  | backward =>
    simp only [Direction.operator, execute, onCell, h, Direction.takes, bne_iff_ne, ne_eq, ite_not]

/-! ## Ticks of a bare machine -/

/-- A machine that nothing but its program guides: it has no jump table, its ticks are not limited, and
its tape is no longer than a word can count. -/
structure Bare (m : Machine) : Prop where
  tickLimit : m.options.tickLimit ≤ 0
  jumps : m.jumps = none
  isWord : IsWord m.tape.size

section Bare

variable {m : Machine} {v : View}

theorem Bare.kept {m' : Machine} (h : m.Bare) (hk : Kept m m') : m'.Bare := by
  refine ⟨?_, hk.jumps.trans h.jumps, ?_⟩
  · rw [hk.options]
    exact h.tickLimit
  · rw [hk.size]
    exact h.isWord

theorem Bare.wrap_succ (h : m.Bare) {i : Nat} (hi : i < m.tape.size) :
    wrap ((i : Int) + 1) = ((i + 1 : Nat) : Int) :=
  Tape.wrap_succ h.isWord hi

theorem Bare.tick (h : m.Bare) (hr : m.isRunning = true) (c : σ) :
    m.tick c = (m.execute m.opcode c).conclude m.ip m.opcode :=
  tick_of_running hr (atTickLimit_of_nonpos h.tickLimit) c

theorem Bare.partner (h : m.Bare) (d : Direction) : m.partner d = d.scan m.tape m.ip := by
  simp only [Machine.partner, h.jumps]
  cases d <;> rfl

/-- An operator other than a bracket. -/
theorem Bare.tick_act (hb : m.Bare) (h : m.Shows v) (hr : m.isRunning = true)
    (hloop : m.opcode ≠ .loop) (hagain : m.opcode ≠ .again) (c : σ) :
    ∃ m₁, m₁.Shows (v.act m.opcode c).1 ∧ Kept m m₁ ∧ m.tick c = Step.conclude m.ip m.opcode
      ⟨m₁, (v.act m.opcode c).2.1, .ofExcept (v.act m.opcode c).2.2⟩ := by
  obtain ⟨m₁, hx, hs, hk⟩ := execute_of_shows h hb.isWord hloop hagain c
  exact ⟨m₁, hs, hk, by rw [hb.tick hr, hx]⟩

/-- A bracket that does not jump. -/
theorem Bare.tick_pass (hb : m.Bare) (h : m.Shows v) (hr : m.isRunning = true) {d : Direction}
    (hop : m.opcode = d.operator) (ht : d.takes v.memory.cell = false) (c : σ) :
    m.tick c = ⟨m.advance, c, .ok (!m.advance.isRunning)⟩ := by
  rw [hb.tick hr, hop, execute_bracket h.cell?, ht]
  rfl

/-- A bracket that jumps. -/
theorem Bare.tick_jump (hb : m.Bare) (h : m.Shows v) (hr : m.isRunning = true) {d : Direction}
    (hop : m.opcode = d.operator) (ht : d.takes v.memory.cell = true) (c : σ) :
    m.tick c = (m.land c (d.scan m.tape m.ip)).conclude m.ip d.operator := by
  rw [hb.tick hr, hop, execute_bracket h.cell?, ht, if_pos rfl, jump_eq_land, hb.partner]

end Bare
end Machine
end TapeMachine
