import TapeMachine.Console
import TapeMachine.Proofs.Machine.Regions

/-!
# Sessions

Whoever holds a machine may do more with it than tick it: change cells and pointers, and assign the code
pointer, the extend level and the tick limit, to whatever word they like.  An `Operation` is one such
thing, and a session is a list of them, performed in turn (`performAll`), with the answers they gave.

Only two facts about operations are needed to know what they preserve: each of them either touches the
machine in the sense of `Touched`, or is a run, that is many ticks (`Operation.perform_invariant`).

`regions_of_reachable` is what the whole of it is for.  However a machine was used since it was built, and
with whatever operators executed on it from outside, its program is the one it was built with, its regions
are where they were, and its data pointer is on a data cell.
-/

set_option autoImplicit false
namespace TapeMachine

variable {σ : Type}

/-- The addresses of data cells that a tape gives out. -/
inductive Place where
  /-- The address of a tape index, or the zero address if that is not a data cell. -/
  | index (i : Int)
  | first
  | last
  | zero
  /-- The data pointer. -/
  | pointer
  deriving DecidableEq, Repr

def Place.address (m : Machine) : Place → Tape.Address
  | index i => (m.tape.address? i).getD {}
  | first => m.tape.firstData
  | last => m.tape.lastData
  | zero => {}
  | pointer => m.ptr

/-- What can be done with a machine. -/
inductive Operation where
  | tick
  /-- Runs the machine, and looks at it after so many ticks. -/
  | run (ticks : Nat)
  | changeCell (change : Change UInt8)
  | changePtr (change : Change Int)
  | setStorage (value : UInt8)
  | setCell (place : Place) (value : UInt8)
  | setIp (value : Int)
  | setExtend (value : Int)
  | setTickLimit (value : Int)
  deriving Repr

/-- What an operation answers.  A run that is still going on has no outcome. -/
inductive Answer where
  | nothing
  | tick (outcome : Outcome Bool)
  | run (outcome : Option (Outcome Unit))
  deriving Repr

/-- The machine and the channel after some operations, and what they answered. -/
structure Performed (σ : Type) where
  machine : Machine
  channel : σ
  answers : List Answer

variable [Channel σ]

/-- Performs one operation. -/
def Operation.perform (m : Machine) (c : σ) : Operation → Performed σ
  | .tick => let s := m.tick c; ⟨s.machine, s.channel, [.tick s.outcome]⟩
  | .run n => let r := m.runFor n c; ⟨r.machine, r.channel, [.run r.outcome]⟩
  | .changeCell change => ⟨m.changeCell change, c, [.nothing]⟩
  | .changePtr change => ⟨m.changePtr change, c, [.nothing]⟩
  | .setStorage v => ⟨m.putStorage v, c, [.nothing]⟩
  | .setCell place v => ⟨{ m with tape := m.tape.setCell (place.address m) v }, c, [.nothing]⟩
  | .setIp v => ⟨{ m with ip := v }, c, [.nothing]⟩
  | .setExtend v => ⟨{ m with options := { m.options with extend := v } }, c, [.nothing]⟩
  | .setTickLimit v => ⟨{ m with options := { m.options with tickLimit := v } }, c, [.nothing]⟩

/-- Performs some operations in turn. -/
def performAll (m : Machine) (c : σ) : List Operation → Performed σ
  | [] => ⟨m, c, []⟩
  | op :: ops =>
    let s := op.perform m c
    let rest := performAll s.machine s.channel ops
    { rest with answers := s.answers ++ rest.answers }

/-! ## What operations preserve -/

namespace Machine

/-- Every address that a tape gives out is that of a data cell. -/
theorem Placed.address {m : Machine} (h : m.Placed) (place : Place) :
    0 ≤ (place.address m).offset ∧ (place.address m).offset < m.tape.dataLength := by
  have hpos : 0 < m.tape.dataLength := by
    have h1 := h.1
    have h2 := h.2
    omega
  cases place with
  | index i =>
    simp only [Place.address, Tape.address?, Tape.dataLength] at *
    split
    · simp only [Option.getD_some]
      omega
    · simp only [Option.getD_none]
      omega
  | first => simp only [Place.address, Tape.firstData]; omega
  | last => simp only [Place.address, Tape.lastData]; omega
  | zero => simp only [Place.address]; omega
  | pointer => exact h

theorem touched_setCell {m : Machine} (hm : m.Placed) (place : Place) (v : UInt8) :
    Touched (m.tape.index (place.address m)) m
      { m with tape := m.tape.setCell (place.address m) v } := by
  refine ⟨⟨v, rfl⟩, Or.inr ?_, ?_, rfl⟩
  · have h := (hm.address place).1
    simp only [Tape.index]
    omega
  · rw [placed_iff] at hm ⊢
    simpa [Tape.setCell, ptrIndex, Tape.index] using hm

theorem touched_changeCell {m : Machine} (hm : m.Placed) (change : Change UInt8) :
    Touched m.ptrIndex m (m.changeCell change) := by
  rw [changeCell]
  split
  · exact touched_putCell hm _
  · exact touched_refl hm

end Machine

open Machine

/-- **What is preserved by every touch is preserved by every operation.** -/
theorem Operation.perform_invariant {P : Machine → Prop} (hplaced : ∀ {m}, P m → m.Placed)
    (htouch : ∀ {i m m'}, P m → Touched i m m' → P m') (op : Operation) {m : Machine} (h : P m)
    (c : σ) : P (op.perform m c).machine := by
  have hm := hplaced h
  have htick : ∀ (m : Machine) (c : σ), P m → P (m.tick c).machine := by
    intro m c h
    obtain ⟨i, -, ht⟩ := exists_touched_tick (hplaced h) c
    exact htouch h ht
  cases op with
  | tick => exact htick m c h
  | run n => exact runFor_invariant htick n m c h
  | changeCell change => exact htouch h (touched_changeCell hm change)
  | changePtr change =>
    refine htouch h (touched_of_tape_eq hm ?_ (hm.changePtr change) ?_)
    · cases hmode : change.mode <;> simp [Operation.perform, Machine.changePtr, hmode]
    · cases hmode : change.mode <;> simp [Operation.perform, Machine.changePtr, hmode]
  | setStorage v => exact htouch h (touched_putStorage hm v)
  | setCell place v => exact htouch h (touched_setCell hm place v)
  | setIp v => exact htouch h (touched_of_tape_eq hm rfl hm rfl)
  | setExtend v => exact htouch h (touched_of_tape_eq hm rfl hm rfl)
  | setTickLimit v => exact htouch h (touched_of_tape_eq hm rfl hm rfl)

/-! ## Every state a machine can get into -/

/-- The machines that `m₀` can become: by operations, and by executing operators out of turn, on
whatever state the channel is in. -/
inductive Reachable (σ : Type) [Channel σ] (m₀ : Machine) : Machine → Prop
  | start : Reachable σ m₀ m₀
  | perform {m : Machine} (h : Reachable σ m₀ m) (op : Operation) (c : σ) :
      Reachable σ m₀ (op.perform m c).machine
  | execute {m : Machine} (h : Reachable σ m₀ m) (op : Operator) (c : σ) :
      Reachable σ m₀ (m.execute op c).machine

theorem Reachable.intact {program : List UInt8} {dataLength : Nat} {m₀ m : Machine}
    (h : Reachable σ m₀ m) (h₀ : Intact program dataLength m₀) : Intact program dataLength m := by
  induction h with
  | start => exact h₀
  | perform _ op c ih => exact op.perform_invariant Intact.placed Intact.touched ih c
  | execute _ op c ih =>
    obtain ⟨i, -, ht⟩ := exists_touched_execute ih.placed op c
    exact ih.touched ht

/-- **No session moves a region or reaches into the program.**  In every state that a machine can get
into, the data pointer is in the data region, the program and the bounds of the regions are those it was
built with, and one more tick changes at most one byte: the cell under the data pointer or, at an extend
level of one or more, the storage cell. -/
theorem regions_of_reachable {program : List UInt8} {dataLength : Int} {options : Options}
    {m₀ m : Machine} (hb : build program dataLength options = .ok m₀) (hr : Reachable σ m₀ m) :
    (m.tape.dataStart ≤ m.ptrIndex ∧ m.ptrIndex ≤ (m.tape.size : Int) - 1) ∧
      m.tape.code = program ∧
      m.tape.size = m₀.tape.size ∧
      m.tape.dataStart = m₀.tape.dataStart ∧
      ∀ c : σ, ∃ i, (i = m.ptrIndex ∨ (1 ≤ m.options.extend ∧ i = 0)) ∧
        ∀ j, j ≠ i → (m.tick c).machine.tape.get? j = m.tape.get? j := by
  obtain ⟨-, hd, rfl⟩ := build_eq_ok_iff.mp hb
  have h₀ := intact_fresh program hd options
  have h := hr.intact h₀
  refine ⟨placed_iff.mp h.placed, h.code, h.size.trans h₀.size.symm,
    h.dataStart.trans h₀.dataStart.symm, fun c ↦ ?_⟩
  obtain ⟨i, hi, ht⟩ := exists_touched_tick h.placed c
  exact ⟨i, hi, fun j hj ↦ ht.get? hj⟩

/-- The program `+$` at level one, after a run, an assignment that takes the data pointer out of its
region and an operator executed out of turn. -/
theorem regions_of_reachable_store :
    ∃ m₀ m : Machine, build [0x2b, 0x24] 2 { extend := 1 } = .ok m₀ ∧
      Reachable (Option Console) m₀ m ∧
      (m.tape.dataStart ≤ m.ptrIndex ∧ m.ptrIndex ≤ (m.tape.size : Int) - 1) ∧
      m.tape.code = [0x2b, 0x24] := by
  have hb : build [0x2b, 0x24] 2 { extend := 1 } = .ok (fresh [0x2b, 0x24] 2 { extend := 1 }) :=
    build_eq_ok_iff.mpr ⟨by decide, by decide, rfl⟩
  have hstart : Reachable (Option Console) (fresh [0x2b, 0x24] 2 { extend := 1 })
      (fresh [0x2b, 0x24] 2 { extend := 1 }) := .start
  have hr := ((hstart.perform (.run 1) none).perform
    (.changePtr ⟨.sub, -9223372036854775808⟩) none).execute .store none
  have h := regions_of_reachable hb hr
  exact ⟨_, _, hb, hr, h.1, h.2.1⟩

end TapeMachine
