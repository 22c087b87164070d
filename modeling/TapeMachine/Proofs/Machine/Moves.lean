import TapeMachine.Proofs.Machine.Regions

/-!
# Where a move of the data pointer ends

A move adds a distance to the tape index of the data pointer, or takes it away, and asks whether the result
is in the data region.  The result is a 64-bit word, and is taken modulo `2 ^ 64`.  So there is a question
whether a sum that was too large could come back into the data region from the other side.

It could not.  An index of the tape is not negative, and so its sum with a word, and its difference, is at
least `-2 ^ 63` and less than `2 ^ 64`.  What of this is no word is made negative (`wrap_neg`), and a negative
number is no index.  It is refused, as the exact sum is (`Tape.address?_wrap`).

* `Tape.landing` is where a move ends, in terms of integers without any bound.
* `changePtr_exact` is the result: a machine moves its data pointer there, and does nothing else.
* Single steps to the right and to the left undo each other, although nothing is computed modulo the length
  of the region, and each of its ends is tested on its own (`Placed.changePtr_add_sub`,
  `Placed.changePtr_sub_add`).
-/

set_option autoImplicit false
namespace TapeMachine

/-- A sum that is too large for a word, but not by more than a word can hold, wraps to a negative number. -/
theorem wrap_neg {n : Int} (h : 9223372036854775808 ≤ n) (h' : n < 18446744073709551616) :
    wrap n < 0 := by
  unfold wrap
  omega

namespace Tape

/-- The indices of the data region. -/
def InData (t : Tape) (i : Int) : Prop :=
  t.dataStart ≤ i ∧ i ≤ (t.size : Int) - 1

instance (t : Tape) (i : Int) : Decidable (t.InData i) :=
  inferInstanceAs (Decidable (_ ∧ _))

theorem address?_of_inData {t : Tape} {i : Int} (h : t.InData i) :
    t.address? i = some ⟨i - t.dataStart⟩ :=
  if_pos h

theorem address?_of_not_inData {t : Tape} {i : Int} (h : ¬t.InData i) : t.address? i = none :=
  if_neg h

/-- No index is made, or lost, by wrapping. -/
theorem address?_wrap {t : Tape} (ht : IsWord t.size) {i : Int} (hlow : -9223372036854775808 ≤ i)
    (hhigh : i < 18446744073709551616) : t.address? (wrap i) = t.address? i := by
  by_cases hi : i < 9223372036854775808
  · rw [wrap_eq_self ⟨hlow, hi⟩]
  · have hneg : wrap i < 0 := wrap_neg (by omega) hhigh
    have hsize := ht.2
    have hout : ∀ j : Int, j < 0 ∨ (t.size : Int) ≤ j → ¬t.InData j := by
      intro j hj hdata
      simp only [InData] at hdata
      omega
    rw [address?_of_not_inData (hout _ (Or.inl hneg)), address?_of_not_inData (hout _ (by omega))]

/-- The index at which a move from the index `p` ends.  Past the region it starts again from the first cell, or
from the last one, depending on the mode; a plain assignment outside is ignored. -/
def landing (t : Tape) (p : Int) (change : Change Int) : Int :=
  match change.mode with
  | .add => if t.InData (p + change.value) then p + change.value else t.dataStart
  | .sub => if t.InData (p - change.value) then p - change.value else (t.size : Int) - 1
  | .set => if t.InData change.value then change.value else p
  | .unknown _ => p

/-- A step to the right is undone by a step to the left. -/
theorem landing_add_sub {t : Tape} {p : Int} (hp : t.InData p) :
    t.landing (t.landing p ⟨.add, 1⟩) ⟨.sub, 1⟩ = p := by
  by_cases hnext : t.InData (p + 1)
  · simp only [landing, if_pos hnext, Int.add_sub_cancel, if_pos hp]
  · have hbefore : ¬t.InData (t.dataStart - 1) := by
      simp only [InData]
      omega
    simp only [landing, if_neg hnext, if_neg hbefore]
    simp only [InData] at hp hnext
    omega

/-- A step to the left is undone by a step to the right. -/
theorem landing_sub_add {t : Tape} {p : Int} (hp : t.InData p) :
    t.landing (t.landing p ⟨.sub, 1⟩) ⟨.add, 1⟩ = p := by
  by_cases hprevious : t.InData (p - 1)
  · simp only [landing, if_pos hprevious, Int.sub_add_cancel, if_pos hp]
  · have hbehind : ¬t.InData ((t.size : Int) - 1 + 1) := by
      simp only [InData]
      omega
    simp only [landing, if_neg hprevious, if_neg hbehind]
    simp only [InData] at hp hprevious
    omega

end Tape

namespace Machine

/-- Only the data pointer is moved. -/
theorem changePtr_eq_with (m : Machine) (change : Change Int) :
    m.changePtr change = { m with ptr := (m.changePtr change).ptr } := by
  unfold changePtr
  split <;> rfl

theorem tape_changePtr (m : Machine) (change : Change Int) : (m.changePtr change).tape = m.tape := by
  rw [changePtr_eq_with]

/-- An address that is handed out is that of the index, and another one stands in for it otherwise. -/
theorem ptrIndex_getD_address? (m : Machine) (i : Int) (a : Tape.Address) :
    ({ m with ptr := (m.tape.address? i).getD a } : Machine).ptrIndex =
      if m.tape.InData i then i else m.tape.index a := by
  by_cases hi : m.tape.InData i
  · rw [if_pos hi, Tape.address?_of_inData hi, Option.getD_some]
    exact Tape.index_of_address? (Tape.address?_of_inData hi)
  · rw [if_neg hi, Tape.address?_of_not_inData hi, Option.getD_none]
    rfl

namespace Placed

variable {m : Machine}

theorem ptrIndex_changePtr (hm : m.Placed) (ht : IsWord m.tape.size) (mode : ChangeMode) {n : Int}
    (hn : IsWord n) : (m.changePtr ⟨mode, n⟩).ptrIndex = m.tape.landing m.ptrIndex ⟨mode, n⟩ := by
  obtain ⟨hlow, hhigh⟩ := placed_iff.mp hm
  obtain ⟨hn, hn'⟩ := hn
  have hsize := ht.2
  have hfirst : m.tape.index m.tape.firstData = m.tape.dataStart := Int.add_zero _
  have hlast : m.tape.index m.tape.lastData = (m.tape.size : Int) - 1 := by
    have hle := m.tape.dataStart_le_size
    simp only [Tape.index, Tape.lastData, Tape.dataLength, Tape.size] at *
    omega
  cases mode with
  | add =>
    simp only [Machine.changePtr, Tape.landing]
    rw [Tape.address?_wrap ht (by omega) (by omega), ptrIndex_getD_address?, hfirst]
  | sub =>
    simp only [Machine.changePtr, Tape.landing]
    rw [Tape.address?_wrap ht (by omega) (by omega), ptrIndex_getD_address?, hlast]
  | set => exact ptrIndex_getD_address? m n m.ptr
  | unknown tag => rfl

/-- A machine that comes back to the index it started from is as it was. -/
theorem changePtr_changePtr (hm : m.Placed) (ht : IsWord m.tape.size) {mode mode' : ChangeMode}
    {n n' : Int} (hn : IsWord n) (hn' : IsWord n')
    (h : m.tape.landing (m.tape.landing m.ptrIndex ⟨mode, n⟩) ⟨mode', n'⟩ = m.ptrIndex) :
    (m.changePtr ⟨mode, n⟩).changePtr ⟨mode', n'⟩ = m := by
  have hindex : ((m.changePtr ⟨mode, n⟩).changePtr ⟨mode', n'⟩).ptrIndex = m.ptrIndex := by
    rw [(hm.changePtr ⟨mode, n⟩).ptrIndex_changePtr (by rwa [tape_changePtr]) mode' hn',
      tape_changePtr, hm.ptrIndex_changePtr ht mode hn, h]
  simp only [ptrIndex, Tape.index, tape_changePtr] at hindex
  have hptr : ((m.changePtr ⟨mode, n⟩).changePtr ⟨mode', n'⟩).ptr = m.ptr :=
    congrArg Tape.Address.mk (Int.add_left_cancel hindex)
  rw [changePtr_eq_with, hptr, changePtr_eq_with m]

theorem changePtr_add_sub (hm : m.Placed) (ht : IsWord m.tape.size) :
    (m.changePtr ⟨.add, 1⟩).changePtr ⟨.sub, 1⟩ = m :=
  hm.changePtr_changePtr ht (by decide) (by decide) (Tape.landing_add_sub (placed_iff.mp hm))

theorem changePtr_sub_add (hm : m.Placed) (ht : IsWord m.tape.size) :
    (m.changePtr ⟨.sub, 1⟩).changePtr ⟨.add, 1⟩ = m :=
  hm.changePtr_changePtr ht (by decide) (by decide) (Tape.landing_sub_add (placed_iff.mp hm))

end Placed

/-- **The data pointer moves as if its index were an integer without bounds.**  Whatever word the distance
is, the sum or difference that is tested is in the data region exactly if the exact one is, and so the move
ends at `Tape.landing`.  All else about the machine is as before.  The length of the tape is taken to be a word. -/
theorem changePtr_exact {m : Machine} (hm : m.Placed) (ht : IsWord m.tape.size) (mode : ChangeMode)
    {n : Int} (hn : IsWord n) :
    (m.changePtr ⟨mode, n⟩).ptrIndex = m.tape.landing m.ptrIndex ⟨mode, n⟩ ∧
      m.changePtr ⟨mode, n⟩ = { m with ptr := (m.changePtr ⟨mode, n⟩).ptr } :=
  ⟨hm.ptrIndex_changePtr ht mode hn, changePtr_eq_with m _⟩

/-- The least word, taken away from the index of the first of four cells, is far past the last one. -/
theorem changePtr_exact_least :
    let m := fresh [0x2b, 0x2b, 0x2b] 4 {}
    m.Placed ∧ m.ptrIndex = 4 ∧
      (m.changePtr ⟨.sub, -9223372036854775808⟩).ptrIndex = 7 ∧
      (m.changePtr ⟨.sub, -9223372036854775808⟩).tape = m.tape := by
  intro m
  have hm : m.Placed := ⟨by decide, by decide⟩
  obtain ⟨hptr, hrest⟩ := changePtr_exact hm (by decide) .sub (n := -9223372036854775808) (by decide)
  refine ⟨hm, rfl, hptr.trans ?_, ?_⟩
  · decide
  · rw [hrest]

end Machine
end TapeMachine
