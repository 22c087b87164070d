import TapeMachine.Word

/-!
# The tape

One array of bytes holds everything a machine remembers.  Index `0` is the storage cell, the program
follows from index `1` on, and the data region lies behind it.  Where the regions begin is fixed when
the tape is built; `region` tells them apart by index alone.

A data cell is named by an `Address`, an offset from the start of the data region.  Addresses are made
by `address?`, `firstData` and `lastData`; on a tape without data cells `lastData` lies one before
the region, and so names the byte in front of it.

Reading outside the tape gives nothing (`get?`), and writing there changes nothing (`put`).
-/

set_option autoImplicit false
namespace TapeMachine

/-- A logical partition of the tape.  A tag that names no partition is kept as it is. -/
inductive Region where
  | storage
  | code
  | data
  | unknown (tag : Int)
  deriving DecidableEq, Repr

namespace Region

def ofTag (n : Int) : Region :=
  if n = 0 then storage else if n = 1 then code else if n = 2 then data else unknown n

def name : Region → String
  | storage => "storage"
  | code => "code"
  | data => "data"
  | unknown n => s!"Region({n})"

end Region

/-- The memory image shared by the storage cell, the program and the data region. -/
structure Tape where
  bytes : Array UInt8
  dataStart : Nat
  one_le_dataStart : 1 ≤ dataStart
  dataStart_le_size : dataStart ≤ bytes.size

namespace Tape

/-- A cell of the data region, held as an offset from the start of the region. -/
structure Address where
  offset : Int := 0
  deriving DecidableEq, Repr

/-- The tape of a program text with `dataLength` zeroed data cells; a negative length counts as
none. -/
def ofProgram (program : List UInt8) (dataLength : Int) : Tape where
  bytes := ((0 :: program) ++ List.replicate dataLength.toNat 0).toArray
  dataStart := 1 + program.length
  one_le_dataStart := by omega
  dataStart_le_size := by simp; omega

/-- The number of bytes on the tape. -/
abbrev size (t : Tape) : Nat :=
  t.bytes.size

/-- The index of the first program byte. -/
def codeStart : Nat :=
  1

/-- The number of cells in the data region. -/
def dataLength (t : Tape) : Nat :=
  t.size - t.dataStart

/-- The program text. -/
def code (t : Tape) : List UInt8 :=
  (t.bytes.extract codeStart t.dataStart).toList

/-- The data region. -/
def data (t : Tape) : List UInt8 :=
  (t.bytes.extract t.dataStart t.size).toList

/-- The region that holds a tape index.  Everything before the program counts as storage, and
everything behind it as data. -/
def region (t : Tape) (i : Int) : Region :=
  if i < codeStart then .storage else if i < t.dataStart then .code else .data

/-! ## Single bytes -/

/-- The byte at an index, if the index is on the tape. -/
def get? (t : Tape) (i : Int) : Option UInt8 :=
  if i < 0 then none else t.bytes[i.toNat]?

/-- Writes a byte at an index of the tape; off the tape there is nothing to write. -/
def put (t : Tape) (i : Int) (v : UInt8) : Tape :=
  if i < 0 then t
  else
    { t with
      bytes := t.bytes.setIfInBounds i.toNat v
      dataStart_le_size := by simpa using t.dataStart_le_size }

@[simp] theorem dataStart_put (t : Tape) (i : Int) (v : UInt8) :
    (t.put i v).dataStart = t.dataStart := by
  unfold put; split <;> rfl

@[simp] theorem size_put (t : Tape) (i : Int) (v : UInt8) : (t.put i v).size = t.size := by
  unfold put size; split <;> simp

/-- Exactly the indices of the tape can be read. -/
theorem isSome_get? (t : Tape) (i : Int) : (t.get? i).isSome ↔ 0 ≤ i ∧ i < t.size := by
  unfold size
  by_cases hi : i < 0
  · simp only [get?, hi, ite_true, Option.isSome_none, Bool.false_eq_true, false_iff]
    omega
  · simp only [get?, hi, ite_false, Option.isSome_iff_exists, Array.getElem?_eq_some_iff]
    exact ⟨fun ⟨_, h, _⟩ => by omega, fun h => ⟨_, by omega, rfl⟩⟩

/-- A write is read back at its own index, and nowhere else. -/
theorem get?_put (t : Tape) (i j : Int) (v : UInt8) :
    (t.put i v).get? j = if i = j then (t.get? j).map fun _ => v else t.get? j := by
  unfold get? put
  by_cases hj : j < 0
  · simp [hj]
  by_cases hi : i < 0
  · have : i ≠ j := by omega
    simp [hj, hi, this]
  by_cases hij : i = j
  · subst hij
    by_cases hs : i.toNat < t.bytes.size <;> simp [hi, hs]
  · have : i.toNat ≠ j.toNat := by omega
    simp [hi, hj, hij, this]

/-- The storage cell. -/
def storage (t : Tape) : UInt8 :=
  t.bytes.getD 0 0

def setStorage (t : Tape) (v : UInt8) : Tape :=
  t.put 0 v

/-! ## Data addresses -/

/-- The address of the data cell at a tape index; indices outside the data region have none. -/
def address? (t : Tape) (i : Int) : Option Address :=
  if t.dataStart ≤ i ∧ i ≤ (t.size : Int) - 1 then some ⟨i - t.dataStart⟩ else none

/-- The tape index of a data address. -/
def index (t : Tape) (a : Address) : Int :=
  t.dataStart + a.offset

/-- The first data cell. -/
def firstData (_t : Tape) : Address :=
  ⟨0⟩

/-- The last data cell. -/
def lastData (t : Tape) : Address :=
  ⟨(t.dataLength : Int) - 1⟩

/-- The value of a data cell. -/
def cell? (t : Tape) (a : Address) : Option UInt8 :=
  t.get? (t.index a)

def setCell (t : Tape) (a : Address) (v : UInt8) : Tape :=
  t.put (t.index a) v

/-- An address that was handed out leads back to its index. -/
theorem index_of_address? {t : Tape} {i : Int} {a : Address} (h : t.address? i = some a) :
    t.index a = i := by
  unfold address? at h
  split at h
  · cases h; simp only [index]; omega
  · cases h

end Tape

end TapeMachine
