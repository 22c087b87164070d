import TapeMachine.Tape

/-!
# The three regions of a tape

A tape is one array, but every statement about a machine is about its regions: the storage cell, the
program and the data cells.  This file is the dictionary between the two.  `toList_bytes` says that the
array is nothing but the three regions one after the other, and the lemmas below it say what a write does
to each of them, so that nothing later has to look at an index of the array.

* A write in the data region is seen by `data` alone (`data_setCell`, `code_setCell`,
  `storage_setCell`), and a write of the storage cell by `storage` alone.
* More generally `code_put` says which writes leave the program as it is: all those outside the code
  region.  This is the one fact on which everything about the immutability of programs rests.
-/

set_option autoImplicit false
namespace TapeMachine
namespace Tape

/-! ## Reading the regions -/

theorem bytes_size_pos (t : Tape) : 0 < t.bytes.size := by
  have h1 := t.one_le_dataStart
  have h2 := t.dataStart_le_size
  omega

theorem getElem?_code (t : Tape) (k : Nat) :
    t.code[k]? = if 1 + k < t.dataStart then t.bytes[1 + k]? else none := by
  have h := t.dataStart_le_size
  rw [code, codeStart, Array.getElem?_toList, Array.getElem?_extract]
  by_cases hk : 1 + k < t.dataStart
  · rw [if_pos (by omega), if_pos hk]
  · rw [if_neg (by omega), if_neg hk]

theorem getElem?_data (t : Tape) (k : Nat) : t.data[k]? = t.bytes[t.dataStart + k]? := by
  rw [data, size, Array.getElem?_toList, Array.getElem?_extract]
  by_cases hk : t.dataStart + k < t.bytes.size
  · rw [if_pos (by omega)]
  · rw [if_neg (by omega), Array.getElem?_eq_none (by omega)]

theorem getElem?_zero_bytes (t : Tape) : t.bytes[0]? = some t.storage := by
  rw [storage, Array.getD_eq_getD_getElem?, Array.getElem?_eq_getElem t.bytes_size_pos]
  rfl

@[simp] theorem length_code (t : Tape) : t.code.length = t.dataStart - 1 := by
  have h := t.dataStart_le_size
  simp only [code, codeStart, Array.length_toList, Array.size_extract]
  omega

@[simp] theorem length_data (t : Tape) : t.data.length = t.dataLength := by
  simp only [data, dataLength, size, Array.length_toList, Array.size_extract]
  omega

theorem dataStart_eq (t : Tape) : t.dataStart = 1 + t.code.length := by
  have h := t.one_le_dataStart
  rw [length_code]
  omega

theorem size_eq (t : Tape) : t.size = 1 + t.code.length + t.data.length := by
  have h : t.dataStart ≤ t.size := t.dataStart_le_size
  rw [← dataStart_eq, length_data, dataLength]
  omega

/-- **The tape is its three regions**, one after the other. -/
theorem toList_bytes (t : Tape) : t.bytes.toList = t.storage :: (t.code ++ t.data) := by
  apply List.ext_getElem?
  intro i
  rw [Array.getElem?_toList]
  cases i with
  | zero => exact t.getElem?_zero_bytes
  | succ i =>
    rw [List.getElem?_cons_succ, List.getElem?_append, length_code]
    by_cases hi : i < t.dataStart - 1
    · rw [if_pos hi, getElem?_code, if_pos (by omega), Nat.add_comm]
    · have h := t.one_le_dataStart
      rw [if_neg hi, getElem?_data]
      congr 1
      omega

/-! ## The tape of a program -/

theorem toList_bytes_ofProgram (program : List UInt8) (dataLength : Int) :
    (ofProgram program dataLength).bytes.toList
      = 0 :: (program ++ List.replicate dataLength.toNat 0) := by
  simp [ofProgram]

@[simp] theorem dataStart_ofProgram (program : List UInt8) (dataLength : Int) :
    (ofProgram program dataLength).dataStart = 1 + program.length := by
  rfl

@[simp] theorem code_ofProgram (program : List UInt8) (dataLength : Int) :
    (ofProgram program dataLength).code = program := by
  rw [code, Array.toList_extract, toList_bytes_ofProgram, List.extract_eq_take_drop]
  simp [codeStart]

@[simp] theorem data_ofProgram (program : List UInt8) (dataLength : Int) :
    (ofProgram program dataLength).data = List.replicate dataLength.toNat 0 := by
  have hsize : (ofProgram program dataLength).size = 1 + program.length + dataLength.toNat := by
    rw [size, ← Array.length_toList, toList_bytes_ofProgram]
    simp
    omega
  rw [data, Array.toList_extract, toList_bytes_ofProgram, List.extract_eq_take_drop, hsize]
  simp [Nat.add_comm 1 program.length]

@[simp] theorem storage_ofProgram (program : List UInt8) (dataLength : Int) :
    (ofProgram program dataLength).storage = 0 := by
  have h := (ofProgram program dataLength).getElem?_zero_bytes
  rw [← Array.getElem?_toList, toList_bytes_ofProgram] at h
  exact (Option.some.inj h).symm

theorem size_ofProgram (program : List UInt8) (dataLength : Int) :
    (ofProgram program dataLength).size = 1 + program.length + dataLength.toNat := by
  rw [size_eq, code_ofProgram, data_ofProgram, List.length_replicate]

/-! ## Writing -/

theorem bytes_put (t : Tape) (i : Nat) (v : UInt8) :
    (t.put i v).bytes = t.bytes.setIfInBounds i v := by
  rw [put, if_neg (by omega)]
  rfl

/-- **Only a write inside the code region changes the program.** -/
theorem code_put (t : Tape) (i : Int) (v : UInt8) (h : i < 1 ∨ t.dataStart ≤ i) :
    (t.put i v).code = t.code := by
  apply List.ext_getElem?
  intro k
  rw [getElem?_code, getElem?_code, dataStart_put]
  by_cases hk : 1 + k < t.dataStart
  · rw [if_pos hk, if_pos hk]
    by_cases hi : i < 0
    · rw [put, if_pos hi]
    · rw [put, if_neg hi, Array.getElem?_setIfInBounds, if_neg (by omega)]
  · rw [if_neg hk, if_neg hk]

/-- Writing back what was read changes nothing. -/
theorem put_of_get? {t : Tape} {i : Int} {v : UInt8} (h : t.get? i = some v) : t.put i v = t := by
  rw [get?] at h
  split at h
  · cases h
  · rename_i hi
    rw [put, if_neg hi]
    have hb : t.bytes.setIfInBounds i.toNat v = t.bytes := by
      apply Array.ext_getElem?
      intro j
      rw [Array.getElem?_setIfInBounds]
      by_cases hj : i.toNat = j
      · obtain ⟨hlt, hv⟩ := Array.getElem?_eq_some_iff.mp h
        rw [if_pos hj, if_pos hlt, ← hj, h]
      · rw [if_neg hj]
    cases t
    congr

@[simp] theorem index_natCast (t : Tape) (k : Nat) :
    t.index ⟨k⟩ = ((t.dataStart + k : Nat) : Int) := by
  rfl

theorem storage_setCell (t : Tape) (k : Nat) (v : UInt8) :
    (t.setCell ⟨k⟩ v).storage = t.storage := by
  have h1 := t.one_le_dataStart
  rw [setCell, index_natCast, storage, storage, bytes_put, Array.getD_eq_getD_getElem?,
    Array.getD_eq_getD_getElem?, Array.getElem?_setIfInBounds, if_neg (by omega)]

theorem code_setCell (t : Tape) (k : Nat) (v : UInt8) : (t.setCell ⟨k⟩ v).code = t.code := by
  rw [setCell, index_natCast]
  exact t.code_put _ v (Or.inr (by omega))

theorem data_setCell (t : Tape) (k : Nat) (v : UInt8) :
    (t.setCell ⟨k⟩ v).data = t.data.set k v := by
  apply List.ext_getElem?
  intro j
  have h := t.dataStart_le_size
  rw [getElem?_data, setCell, index_natCast, dataStart_put, bytes_put,
    Array.getElem?_setIfInBounds, List.getElem?_set, length_data, dataLength, getElem?_data, size]
  by_cases hj : k = j
  · rw [if_pos (by omega), if_pos hj]
    by_cases hk : t.dataStart + k < t.bytes.size
    · rw [if_pos hk, if_pos (by omega)]
    · rw [if_neg hk, if_neg (by omega)]
  · rw [if_neg (by omega), if_neg hj]

theorem storage_setStorage (t : Tape) (v : UInt8) : (t.setStorage v).storage = v := by
  have h := t.bytes_size_pos
  rw [setStorage, storage, show (0 : Int) = ((0 : Nat) : Int) from rfl, bytes_put,
    Array.getD_eq_getD_getElem?, Array.getElem?_setIfInBounds, if_pos rfl, if_pos h]
  rfl

theorem code_setStorage (t : Tape) (v : UInt8) : (t.setStorage v).code = t.code :=
  t.code_put 0 v (Or.inl (by omega))

theorem data_setStorage (t : Tape) (v : UInt8) : (t.setStorage v).data = t.data := by
  have h1 := t.one_le_dataStart
  apply List.ext_getElem?
  intro j
  rw [getElem?_data, getElem?_data, setStorage, dataStart_put,
    show (0 : Int) = ((0 : Nat) : Int) from rfl, bytes_put, Array.getElem?_setIfInBounds,
    if_neg (by omega)]

/-! ## Reading single bytes -/

theorem get?_natCast (t : Tape) (i : Nat) : t.get? i = t.bytes[i]? := by
  rw [get?, if_neg (by omega)]
  rfl

theorem get?_of_toList {t : Tape} {pre post : List UInt8} {b : UInt8}
    (h : t.bytes.toList = pre ++ b :: post) : t.get? pre.length = some b := by
  rw [get?_natCast, ← Array.getElem?_toList, h]
  simp

/-- A byte of the program, as it is fetched. -/
theorem get?_of_code {t : Tape} {i : Nat} {b : UInt8} (h : t.code[i]? = some b) :
    t.get? ((i + 1 : Nat) : Int) = some b := by
  rw [getElem?_code] at h
  split at h
  · rw [get?_natCast, Nat.add_comm]
    exact h
  · cases h

/-- A data cell is read at its offset. -/
theorem cell?_natCast (t : Tape) (k : Nat) : t.cell? ⟨k⟩ = t.data[k]? := by
  rw [cell?, index_natCast, get?_natCast, getElem?_data]

/-- Moving on from an index of the tape does not wrap around. -/
theorem wrap_succ {t : Tape} (ht : IsWord t.size) {i : Nat} (hi : i < t.size) :
    wrap ((i : Int) + 1) = ((i + 1 : Nat) : Int) := by
  rw [wrap_eq_self]
  · omega
  · simp only [IsWord] at *
    omega

end Tape
end TapeMachine
