import TapeMachine.Proofs.Machine.History
import TapeMachine.Proofs.Machine.Moves
import TapeMachine.Proofs.Structured.Simulation

/-!
# Programs without loops

A program of `+`, `-`, `>` and `<` alone, and of bytes that mean nothing, can be understood without running
it.  Every byte of it takes one tick.  A byte is obeyed on the cell at which the moves before it have
arrived, and these only need to be counted: the data pointer is at the number of `>` less the number
of `<`, modulo the number of cells (`drift`).  What a cell holds in the end is how many `+` were obeyed on
it, less how many `-`, modulo 256 (`tally`).

The data pointer itself knows nothing of a modulus.  It is compared with the ends of the data region, and
set to the other end if it is past one (`Memory.right`, `Memory.left`); that this is the same is said
by `Memory.offset_right` and `Memory.offset_left`.

* `Charts` is the invariant.  It says that memory is what the bytes obeyed so far make of it by counting.
* `Charts.snoc` is what a byte has to do for the invariant to be kept, and `Charts.obey` that it does so.
* `Stands.charts` is the run, and `returns_straight` the result for whole programs.
-/

set_option autoImplicit false
namespace TapeMachine

open Operator (loopByte againByte)

/-! ## Counting -/

/-- A program that neither speaks to the channel nor has any brackets. -/
def IsStraight (w : List UInt8) : Prop :=
  ∀ b ∈ w, (b ≠ 0x2e ∧ b ≠ 0x2c) ∧ b ≠ loopByte ∧ b ≠ againByte

instance (w : List UInt8) : Decidable (IsStraight w) :=
  List.decidableBAll _ w

/-- The number of moves to the right in a program, less that of moves to the left. -/
def drift (w : List UInt8) : Int :=
  (w.count 0x3e : Int) - w.count 0x3c

/-- How often a byte stands where the moves before it lead to the cell `k`. -/
def countOn (dataLength : Int) (k : Nat) (b : UInt8) (w : List UInt8) : Nat :=
  (List.range w.length).countP fun i ↦ w[i]? = some b ∧ drift (w.take i) % dataLength = k

/-- The number of `+` that are obeyed on the cell `k`, less that of `-`. -/
def tally (dataLength : Int) (k : Nat) (w : List UInt8) : Int :=
  (countOn dataLength k 0x2b w : Int) - countOn dataLength k 0x2d w

/-- What a byte adds to the position of the data pointer. -/
def shift (b : UInt8) : Int :=
  if b = 0x3e then 1 else if b = 0x3c then -1 else 0

/-- What a byte adds to the cell under the data pointer. -/
def charge (b : UInt8) : Int :=
  if b = 0x2b then 1 else if b = 0x2d then -1 else 0

theorem drift_append_singleton (w : List UInt8) (b : UInt8) : drift (w ++ [b]) = drift w + shift b := by
  simp only [drift, shift, List.count_append, List.count_singleton]
  grind

/-- Where the bytes before a byte lead does not depend on those behind it. -/
theorem countOn_append_singleton (dataLength : Int) (k : Nat) (a : UInt8) (w : List UInt8) (b : UInt8) :
    countOn dataLength k a (w ++ [b]) =
      countOn dataLength k a w + if b = a ∧ drift w % dataLength = k then 1 else 0 := by
  have hbefore : ∀ i ∈ List.range w.length,
      ((w ++ [b])[i]? = some a ∧ drift ((w ++ [b]).take i) % dataLength = k ↔
        w[i]? = some a ∧ drift (w.take i) % dataLength = k) := by
    intro i hi
    have hlt := List.mem_range.mp hi
    rw [List.getElem?_append_left hlt, List.take_append_of_le_length (Nat.le_of_lt hlt)]
  rw [countOn, List.length_append, List.length_singleton, List.range_succ, List.countP_append, countOn]
  congr 1
  · refine List.countP_congr fun i hi ↦ ?_
    simpa using hbefore i hi
  · simp [List.countP_singleton]

theorem tally_append_singleton (dataLength : Int) (k : Nat) (w : List UInt8) (b : UInt8) :
    tally dataLength k (w ++ [b]) =
      tally dataLength k w + if drift w % dataLength = k then charge b else 0 := by
  simp only [tally, charge, countOn_append_singleton]
  grind

/-! ## Counting is modulo 256, and modulo the number of cells -/

theorem toNat_add_one (v : UInt8) : ((v + 1).toNat : Int) = ((v.toNat : Int) + 1) % 256 := by
  rw [UInt8.toNat_add, UInt8.toNat_one]
  omega

theorem toNat_sub_one (v : UInt8) : ((v - 1).toNat : Int) = ((v.toNat : Int) + -1) % 256 := by
  rw [UInt8.toNat_sub, UInt8.toNat_one]
  omega

namespace Memory

theorem offset_right (mem : Memory) :
    (mem.right.offset : Int) = ((mem.offset : Int) + 1) % mem.cells.length := by
  have hlt := mem.offset_lt
  simp only [right]
  by_cases hnext : mem.offset + 1 < mem.cells.length
  · rw [if_pos hnext, Int.emod_eq_of_lt] <;> omega
  · have hlast : (mem.offset : Int) + 1 = mem.cells.length := by omega
    rw [if_neg hnext, hlast, Int.emod_self]
    rfl

theorem offset_left (mem : Memory) :
    (mem.left.offset : Int) = ((mem.offset : Int) + -1) % mem.cells.length := by
  have hlt := mem.offset_lt
  simp only [left]
  by_cases hzero : mem.offset = 0
  · rw [if_pos hzero, hzero, ← Int.add_emod_right, Int.emod_eq_of_lt] <;> omega
  · rw [if_neg hzero, Int.emod_eq_of_lt] <;> omega

theorem offset_emod (mem : Memory) : (mem.offset : Int) % mem.cells.length = mem.offset := by
  have hlt := mem.offset_lt
  exact Int.emod_eq_of_lt (by omega) (by omega)

end Memory

/-! ## The invariant -/

/-- The data cells and the data pointer are as the bytes of `w` make them, by counting. -/
structure Charts (dataLength : Int) (w : List UInt8) (mem : Memory) : Prop where
  length_eq : (mem.cells.length : Int) = dataLength
  offset_eq : (mem.offset : Int) = drift w % dataLength
  cell_eq : ∀ (k : Nat) (v : UInt8), mem.cells[k]? = some v →
    (v.toNat : Int) = tally dataLength k w % 256

theorem charts_blank {dataLength : Int} (hd : 1 ≤ dataLength) :
    Charts dataLength [] (Memory.blank hd) := by
  refine ⟨?_, ?_, fun k v hv ↦ ?_⟩
  · rw [Memory.blank, List.length_replicate]
    omega
  · simp [Memory.blank, drift]
  · rw [Memory.blank, List.getElem?_replicate] at hv
    split at hv
    · cases hv
      simp [tally, countOn]
    · cases hv

namespace Charts

variable {dataLength : Int} {w : List UInt8} {mem mem' : Memory} {b : UInt8}

/-- What a byte has to do: it moves the data pointer by `shift` and changes the cell under it by `charge`,
the one modulo the number of cells and the other modulo 256. -/
theorem snoc (h : Charts dataLength w mem) (hlength : mem'.cells.length = mem.cells.length)
    (hoffset : (mem'.offset : Int) = ((mem.offset : Int) + shift b) % mem.cells.length)
    (hcell : ∀ (k : Nat) (v' : UInt8), mem'.cells[k]? = some v' → ∃ v, mem.cells[k]? = some v ∧
      (v'.toNat : Int) = ((v.toNat : Int) + if mem.offset = k then charge b else 0) % 256) :
    Charts dataLength (w ++ [b]) mem' := by
  refine ⟨?_, ?_, fun k v' hv' ↦ ?_⟩
  · rw [hlength, h.length_eq]
  · rw [hoffset, h.length_eq, h.offset_eq, drift_append_singleton, Int.emod_add_emod]
  · obtain ⟨v, hv, hval⟩ := hcell k v' hv'
    have hhere : (mem.offset = k) = (drift w % dataLength = k) := by
      rw [← h.offset_eq, Int.ofNat_inj]
    simp only [hhere] at hval
    rw [hval, h.cell_eq k v hv, tally_append_singleton, Int.emod_add_emod]

/-- A byte that only moves. -/
theorem move (h : Charts dataLength w mem) (hcharge : charge b = 0) (hcells : mem'.cells = mem.cells)
    (hoffset : (mem'.offset : Int) = ((mem.offset : Int) + shift b) % mem.cells.length) :
    Charts dataLength (w ++ [b]) mem' := by
  refine h.snoc (congrArg List.length hcells) hoffset fun k v hv ↦ ⟨v, hcells ▸ hv, ?_⟩
  have hlt := v.toNat_lt
  rw [hcharge, ite_self, Int.add_zero, Int.emod_eq_of_lt] <;> omega

/-- A byte that only changes a cell. -/
theorem write (h : Charts dataLength w mem) (hshift : shift b = 0) {v : UInt8}
    (hv : (v.toNat : Int) = ((mem.cell.toNat : Int) + charge b) % 256) :
    Charts dataLength (w ++ [b]) (mem.write v) := by
  refine h.snoc List.length_set ?_ fun k v' hv' ↦ ?_
  · rw [hshift, Int.add_zero, Memory.offset_emod]
    rfl
  · rw [Memory.write, List.getElem?_set] at hv'
    by_cases hk : mem.offset = k
    · rw [if_pos hk, if_pos mem.offset_lt] at hv'
      cases hv'
      refine ⟨mem.cell, ?_, ?_⟩
      · rw [← hk]
        exact List.getElem?_eq_getElem mem.offset_lt
      · rw [if_pos hk, hv]
    · rw [if_neg hk] at hv'
      have hlt := v'.toNat_lt
      refine ⟨v', hv', ?_⟩
      rw [if_neg hk, Int.add_zero, Int.emod_eq_of_lt] <;> omega

/-- **Every byte does as it is counted.** -/
theorem obey {σ : Type} [Channel σ] (h : Charts dataLength w mem) (hb : b ≠ 0x2e ∧ b ≠ 0x2c) (c : σ) :
    ∃ mem', mem.obey b c = .done mem' c ∧ Charts dataLength (w ++ [b]) mem' := by
  unfold Memory.obey
  split
  · exact ⟨_, rfl, h.write rfl (toNat_add_one mem.cell)⟩
  · exact ⟨_, rfl, h.write rfl (toNat_sub_one mem.cell)⟩
  · exact ⟨_, rfl, h.move rfl rfl mem.offset_right⟩
  · exact ⟨_, rfl, h.move rfl rfl mem.offset_left⟩
  · exact absurd rfl hb.1
  · exact absurd rfl hb.2
  · rename_i hinc hdec hright hleft _ _
    have hcharge : charge b = 0 := by rw [charge, if_neg hinc, if_neg hdec]
    have hshift : shift b = 0 := by rw [shift, if_neg hright, if_neg hleft]
    refine ⟨mem, rfl, h.move hcharge rfl ?_⟩
    rw [hshift, Int.add_zero, Memory.offset_emod]

end Charts

/-! ## Runs -/

namespace Machine

variable {σ : Type} [Channel σ]

/-- A machine obeys the rest of a program one byte in a tick, and then stands behind it. -/
theorem Stands.charts {dataLength : Int} {after : List UInt8} (hw : IsStraight after) :
    ∀ {m : Machine} {before : List UInt8} {mem : Memory}, Stands m before after mem →
      Charts dataLength before mem → ∀ c : σ, ∃ m' mem', Runs after.length m c m' c ∧
        Stands m' (before ++ after) [] mem' ∧ Charts dataLength (before ++ after) mem' := by
  induction after with
  | nil =>
    intro m before mem hst hch c
    rw [List.append_nil]
    exact ⟨m, mem, .refl, hst, hch⟩
  | cons b after ih =>
    intro m before mem hst hch c
    obtain ⟨⟨hsilent, hplain⟩, hafter⟩ := List.forall_mem_cons.mp hw
    obtain ⟨mem₁, hobey, hch₁⟩ := hch.obey hsilent c
    have hreach := hst.tick_obey hplain c
    rw [hobey] at hreach
    obtain ⟨m₁, hrun₁, hst₁⟩ := hreach
    obtain ⟨m', mem', hrun, hst', hch'⟩ := ih hafter hst₁ hch₁ c
    rw [← List.append_cons] at hst' hch'
    refine ⟨m', mem', ?_, hst', hch'⟩
    rw [List.length_cons, Nat.add_comm]
    exact hrun₁.trans hrun

end Machine

open Machine

variable {σ : Type} [Channel σ]

/-- **A program without loops can be read off.**  Of a machine that was built, with or without a jump table,
on a program of `+`, `-`, `>` and `<` and of bytes that mean nothing at level zero, and that has no limit to
its ticks, the run succeeds after as many ticks as the program has bytes.  The data pointer ends at the
number of `>` less the number of `<`, modulo the number of cells.  A cell ends at the number of `+` that
stand where the data pointer is on it, less the number of `-`, modulo 256.  The channel is not used.

In particular `>` and `<` undo each other on every data cell of every machine.  The length of the tape is
taken to be a word. -/
theorem returns_straight {w : List UInt8} (hw : IsStraight w) {dataLength tickLimit : Int}
    (hd : 1 ≤ dataLength) (hsize : IsWord (1 + w.length + dataLength)) (precompute : Bool)
    (hlimit : tickLimit ≤ 0) (c : σ) :
    (∃ m m', build w dataLength ⟨0, precompute, tickLimit⟩ = .ok m ∧
      m.Returns c m' c (.ok ()) ∧ m'.ticks = w.length ∧ m'.ptr.offset = drift w % dataLength ∧
      ∀ k : Nat, k < dataLength → ∃ v, m'.tape.cell? ⟨k⟩ = some v ∧
        (v.toNat : Int) = tally dataLength k w % 256) ∧
    ∀ m : Machine, m.Placed → IsWord m.tape.size →
      (m.execute .right c).machine.execute .left c = ⟨m, c, .ok ()⟩ ∧
        (m.execute .left c).machine.execute .right c = ⟨m, c, .ok ()⟩ := by
  constructor
  · have hs := sound_fresh w hd hsize ⟨0, precompute, tickLimit⟩
    have hstart := stands_fresh w hd hsize ⟨0, precompute, tickLimit⟩ rfl hlimit
    obtain ⟨m₁, mem, hrun, hst, hch⟩ := hstart.charts hw (charts_blank hd) c
    rw [List.nil_append] at hst hch
    obtain ⟨m', hret, rfl⟩ := hst.exists_returns hs hrun
    obtain ⟨hdata, hptr⟩ := hst.holds
    refine ⟨_, m', build_eq_ok_iff.mpr ⟨Int.le_refl 0, hd, rfl⟩, hret, ?_, ?_, fun k hk ↦ ?_⟩
    · exact hrun.ticks.trans (Nat.zero_add _)
    · exact (congrArg Tape.Address.offset hptr).trans hch.offset_eq
    · have hlt : k < mem.cells.length := by
        have hlength := hch.length_eq
        omega
      refine ⟨mem.cells[k], ?_, hch.cell_eq k _ (List.getElem?_eq_getElem hlt)⟩
      rw [Tape.cell?_natCast]
      exact (congrArg (·[k]?) hdata).trans (List.getElem?_eq_getElem hlt)
  · intro m hm ht
    refine ⟨?_, ?_⟩
    · simp only [execute, hm.changePtr_add_sub ht]
    · simp only [execute, hm.changePtr_sub_add ht]

/-- The program `>+x<<-` on three cells goes round to the left once.  On a single cell, every step leads back
to it. -/
theorem returns_straight_round :
    ∃ m m' : Machine, build [0x3e, 0x2b, 0x78, 0x3c, 0x3c, 0x2d] 3 ⟨0, true, 0⟩ = .ok m ∧
      m.Returns (none : Option Console) m' none (.ok ()) ∧ m'.ticks = 6 ∧ m'.ptr.offset = 2 ∧
      (∃ v, m'.tape.cell? ⟨1⟩ = some v ∧ (v.toNat : Int) = 1) ∧
      (∃ v, m'.tape.cell? ⟨2⟩ = some v ∧ (v.toNat : Int) = 255) ∧
      ((fresh [] 1 {}).execute .right (none : Option Console)).machine.execute .left none =
        ⟨fresh [] 1 {}, (none : Option Console), .ok ()⟩ := by
  obtain ⟨⟨m, m', hbuild, hret, hticks, hoffset, hcell⟩, hundo⟩ :=
    returns_straight (w := [0x3e, 0x2b, 0x78, 0x3c, 0x3c, 0x2d]) (by decide) (show (1 : Int) ≤ 3 by decide)
      (by decide) true (Int.le_refl 0) (none : Option Console)
  have hdrift : drift [0x3e, 0x2b, 0x78, 0x3c, 0x3c, 0x2d] % 3 = 2 := by decide
  have hsecond : tally 3 1 [0x3e, 0x2b, 0x78, 0x3c, 0x3c, 0x2d] % 256 = 1 := by decide
  have hthird : tally 3 2 [0x3e, 0x2b, 0x78, 0x3c, 0x3c, 0x2d] % 256 = 255 := by decide
  refine ⟨m, m', hbuild, hret, hticks, hoffset.trans hdrift, ?_, ?_, ?_⟩
  · rw [← hsecond]
    exact hcell 1 (by decide)
  · rw [← hthird]
    exact hcell 2 (by decide)
  · exact (hundo (fresh [] 1 {}) ⟨by decide, by decide⟩ (by decide)).1

end TapeMachine
