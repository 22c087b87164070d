import TapeMachine.Tape.Snapshot

/-!
# The cells of a tape

The region of a byte is decided twice.  The tape compares the index with where its regions begin
(`Tape.region`), and a snapshot cuts the tape into three spans and tags each of them as a whole
(`Snapshot.spans?`).  A span can be empty, and one that does not fit cannot be read at all.

The regions of a tape always fit, and so the two agree: a snapshot of a tape can be read, and its cells are
those of the tape, from the first index to the last (`Tape.cells?_snapshot`).
-/

set_option autoImplicit false
namespace TapeMachine

/-! ## Walks to the end -/

namespace Walk

variable {α σ : Type}

theorem each_append (f : α → σ → ForInStep σ) (xs ys : List α) (s : σ) :
    each f (xs ++ ys) s =
      match each f xs s with
      | .done s => .done s
      | .yield s => each f ys s := by
  induction xs generalizing s with
  | nil => rfl
  | cons x xs ih =>
    rw [List.cons_append, each, each]
    cases f x s with
    | done s => rfl
    | yield s => exact ih s

/-- A walk over some sequences is a walk over their concatenation, wherever it stops. -/
theorem concat_eq_each (f : α → σ → ForInStep σ) (xss : List (List α)) (s : σ) :
    concat f xss s = each f xss.flatten s := by
  induction xss generalizing s with
  | nil => rfl
  | cons xs xss ih =>
    rw [concat, List.flatten_cons, each_append]
    cases each f xs s with
    | done s => rfl
    | yield s => exact ih s

/-- Without a bound everything is kept. -/
theorem each_keep_none (xs : List α) (s : Seen α) :
    each (keep none) xs s = .yield ⟨s.got ++ xs, s.pulled + xs.length⟩ := by
  induction xs generalizing s with
  | nil => simp [each]
  | cons x xs ih =>
    have hx : keep none x s = .yield ⟨s.got.push x, s.pulled + 1⟩ := by simp [keep]
    rw [each, hx]
    simp [ih, Nat.add_assoc, Nat.add_comm 1]

theorem firstOf_none (xss : List (List α)) : (firstOf none xss).got.toList = xss.flatten := by
  rw [firstOf, if_neg (by simp), concat_eq_each, each_keep_none]
  simp [ForInStep.value]

end Walk

/-! ## Spans of a tape -/

namespace Tape

/-- The cell at an index of the tape. -/
def cellAt (t : Tape) (i : Nat) : Cell :=
  ⟨i, t.region i, t.bytes.getD i 0⟩

/-- All cells of the tape, in order. -/
def cells (t : Tape) : List Cell :=
  (List.range t.size).map t.cellAt

@[simp] theorem length_cells (t : Tape) : t.cells.length = t.size := by
  simp [cells]

/-- A span between two places of the tape that lies in one region. -/
theorem span?_snapshot (t : Tape) (a : Tape.Address) {region : Region} {first last : Nat}
    (hlast : last ≤ t.size) (h : ∀ i : Nat, first ≤ i → i < last → t.region i = region) :
    (t.snapshot a).span? region first last =
      some ((List.range' first (last - first)).map t.cellAt) := by
  have hsize : (t.snapshot a).tape.size = t.size := rfl
  rw [Snapshot.span?, hsize]
  split
  · rw [show last - first = 0 by omega]
    rfl
  · rw [if_neg (by omega), Int.toNat_natCast,
      show ((last : Int) - first).toNat = last - first by omega]
    refine congrArg some (List.map_congr_left fun i hi ↦ ?_)
    obtain ⟨hfirst, hi⟩ := List.mem_range'_1.mp hi
    rw [cellAt, h i hfirst (by omega)]
    rfl

/-- One span begins where the one before it ends. -/
theorem range_eq_spans {start size : Nat} (hone : 1 ≤ start) (hsize : start ≤ size) :
    List.range size =
      List.range' 0 1 ++ (List.range' 1 (start - 1) ++ List.range' start (size - start)) := by
  have hcode := List.range'_append_1 (s := 1) (m := start - 1) (n := size - start)
  have hall := List.range'_append_1 (s := 0) (m := 1) (n := start - 1 + (size - start))
  rw [Nat.add_sub_cancel' hone] at hcode
  rw [hcode, hall, List.range_eq_range', show 1 + (start - 1 + (size - start)) = size by omega]

/-- **The snapshot of a tape can be read**, whatever the data address, and its cells are those of the tape. -/
theorem cells?_snapshot (t : Tape) (a : Tape.Address) : (t.snapshot a).cells? = some t.cells := by
  have hone := t.one_le_dataStart
  have hstart : t.dataStart ≤ t.size := t.dataStart_le_size
  let s := t.snapshot a
  have hstorage : s.span? .storage 0 s.codeStart = some ((List.range' 0 1).map t.cellAt) :=
    t.span?_snapshot a (Nat.le_trans hone hstart) fun i _ hi ↦ if_pos (Int.ofNat_lt.mpr hi)
  have hcode : s.span? .code s.codeStart s.dataStart =
      some ((List.range' 1 (t.dataStart - 1)).map t.cellAt) :=
    t.span?_snapshot a hstart fun i hi hi' ↦ by
      rw [region, if_neg (Int.not_lt.mpr (Int.ofNat_le.mpr hi)), if_pos (Int.ofNat_lt.mpr hi')]
  have hdata : s.span? .data s.dataStart s.tape.size =
      some ((List.range' t.dataStart (t.size - t.dataStart)).map t.cellAt) :=
    t.span?_snapshot a (Nat.le_refl _) fun i hi _ ↦ by
      rw [region, if_neg (by simp only [codeStart]; omega), if_neg (by omega)]
  have hspans : s.spans? =
      some [(List.range' 0 1).map t.cellAt, (List.range' 1 (t.dataStart - 1)).map t.cellAt,
        (List.range' t.dataStart (t.size - t.dataStart)).map t.cellAt] := by
    rw [Snapshot.spans?, hstorage, hcode, hdata]
    rfl
  rw [Snapshot.cells?, show (t.snapshot a).spans? = _ from hspans, Option.map_some,
    Walk.firstOf_none, cells, range_eq_spans hone hstart]
  simp

end Tape
end TapeMachine
