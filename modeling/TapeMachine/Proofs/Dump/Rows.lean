import TapeMachine.Dump
import TapeMachine.Proofs.Tape.Snapshot
import TapeMachine.Proofs.Text.Hex

/-!
# The rows of a dump

The rows of a dump are made in passing: the cells are cut into pieces, an offset runs along with them, and
what a short piece leaves open is filled up in both columns.

All of this is a function of the tape index alone.  In the dump of a tape the place of row `k` and column `j`
shows the index `16 * k + j`.  What it shows is the byte there, styled after its region, or a zero without
any style if the tape has ended (`rows?_snapshot`, `text?_snapshot`).
-/

set_option autoImplicit false
namespace TapeMachine.Dump

/-! ## Characters -/

/-- A printable ASCII character. -/
def Printable (c : Char) : Prop :=
  32 ≤ c.toNat ∧ c.toNat ≤ 126

instance (c : Char) : Decidable (Printable c) :=
  inferInstanceAs (Decidable (_ ∧ _))

theorem toNat_ofNat {n : Nat} (h : n < 128) : (Char.ofNat n).toNat = n := by
  rw [Char.ofNat, dif_pos (Or.inl (by omega))]
  rfl

theorem shown_eq (b : UInt8) :
    shown b = if 32 ≤ b.toNat ∧ b.toNat ≤ 126 then Char.ofNat b.toNat else '.' := rfl

/-- Whatever the byte, what is shown for it can be printed. -/
theorem printable_shown (b : UInt8) : Printable (shown b) := by
  have hb := b.toNat_lt
  rw [shown_eq]
  split
  · rename_i h
    rwa [Printable, toNat_ofNat (by omega)]
  · exact ⟨by decide, by decide⟩

theorem printable_of_isHex {cs : List Char} (h : Text.IsHex cs) {c : Char} (hc : c ∈ cs) :
    Printable c := by
  obtain ⟨d, hd, rfl⟩ := h c hc
  have hdigit := Text.toNat_upperHexDigit hd
  exact ⟨by omega, by omega⟩

/-! ## Pieces -/

/-- The number of rows for some bytes. -/
def rowCount (n : Nat) : Nat :=
  (n + 15) / 16

theorem chunksFor_succ {α : Type} (m : Nat) {xs : List α} (h : 0 < xs.length) :
    chunksFor (m + 1) xs = xs.take 16 :: chunksFor m (xs.drop 16) := by
  cases xs with
  | nil => simp at h
  | cons x xs => rfl

/-- Row `k` shows the cells from `16 * k` on. -/
theorem rowsFrom_chunksFor (color : Bool) (ptr : Int) (m offset : Nat) (cells : List Cell)
    (h : cells.length ≤ m) :
    rowsFrom color ptr offset (chunksFor m cells) =
      (List.range (rowCount cells.length)).map fun (k : Nat) ↦
        row color (offset + 16 * k : Nat) ((cells.drop (16 * k)).take 16) ptr := by
  induction m generalizing offset cells with
  | zero =>
    obtain rfl : cells = [] := List.length_eq_zero_iff.mp (by omega)
    rfl
  | succ m ih =>
    rcases Nat.eq_zero_or_pos cells.length with hempty | hpos
    · obtain rfl : cells = [] := List.length_eq_zero_iff.mp hempty
      rfl
    · have hcount : rowCount cells.length = rowCount (cells.drop 16).length + 1 := by
        simp only [rowCount, List.length_drop]
        omega
      have hrest : (cells.drop 16).length ≤ m := by
        rw [List.length_drop]
        omega
      rw [chunksFor_succ m hpos, rowsFrom, ih _ _ hrest, hcount, List.range_succ_eq_map,
        List.map_cons, List.map_map]
      refine List.cons_eq_cons.mpr ⟨by simp, List.map_congr_left fun k hk ↦ ?_⟩
      -- there is a next row only behind a full one
      have hfull : 16 ≤ cells.length := by
        simp only [rowCount, List.length_drop, List.mem_range] at hk
        omega
      have hoffset : offset + (cells.take 16).length + 16 * k = offset + 16 * (k + 1) := by
        rw [List.length_take, Nat.min_eq_left hfull]
        omega
      rw [hoffset, List.drop_drop, show 16 + 16 * k = 16 * (k + 1) by omega]
      rfl

/-! ## Columns -/

/-- The tape indices that a row shows. -/
def places (k : Nat) : List Nat :=
  List.range' (16 * k) 16

/-- Each index has its place in one row. -/
theorem mem_places {i k : Nat} : i ∈ places k ↔ k = i / 16 := by
  rw [places, List.mem_range'_1]
  omega

theorem nodup_places (k : Nat) : (places k).Nodup :=
  List.nodup_range'

/-- All rows together show the indices from zero on. -/
theorem flatMap_places (n : Nat) : (List.range n).flatMap places = List.range (16 * n) := by
  induction n with
  | zero => rfl
  | succ n ih =>
    rw [List.range_succ, List.flatMap_append, ih, List.flatMap_singleton, places, List.range_eq_range',
      List.range_eq_range', Nat.mul_succ]
    simpa using List.range'_append_1 (s := 0) (m := 16 * n) (n := 16)

/-- The byte that is shown for an index: the byte there, or zero where the tape has ended. -/
def byteAt (t : Tape) (i : Nat) : UInt8 :=
  t.bytes.getD i 0

/-- A text that stands for an index.  Where the tape has ended it is never styled. -/
def placed (color : Bool) (t : Tape) (a : Tape.Address) (i : Nat) (text : List Char) : List Char :=
  if i < t.size then cellText color (t.cellAt i) (t.index a) text else text

/-- What row `k` shows for a tape. -/
def rowAt (color : Bool) (t : Tape) (a : Tape.Address) (k : Nat) : List Char :=
  Text.paddedHex 8 (16 * k : Nat) ++ [' '] ++
    (places k).flatMap (fun i ↦ ' ' :: placed color t a i (Text.upperHexByte (byteAt t i))) ++
    [' ', ' ', '|'] ++
    (places k).flatMap (fun i ↦ placed color t a i [shown (byteAt t i)]) ++
    ['|', '\n']

/-- The places of a row that are on the tape. -/
theorem places_eq (t : Tape) (k : Nat) :
    ∃ used left, places k = used ++ left ∧ (t.cells.drop (16 * k)).take 16 = used.map t.cellAt ∧
      (∀ i ∈ used, i < t.size) ∧ (∀ i ∈ left, t.size ≤ i) ∧ left.length = 16 - used.length := by
  let used := List.range' (16 * k) (min 16 (t.size - 16 * k))
  have hcells : (t.cells.drop (16 * k)).take 16 = used.map t.cellAt := by
    rw [Tape.cells, ← List.map_drop, ← List.map_take, List.range_eq_range', List.drop_range']
    congr 1
    rcases Nat.le_total 16 (t.size - 16 * k) with h | h
    · rw [List.take_range'_of_length_ge h]
      simp [used, Nat.min_eq_left h]
    · rw [List.take_range'_of_length_le h]
      simp [used, Nat.min_eq_right h]
  refine ⟨used, List.range' (16 * k + min 16 (t.size - 16 * k)) (16 - min 16 (t.size - 16 * k)), ?_,
    hcells, fun i hi ↦ ?_, fun i hi ↦ ?_, by simp [used]⟩
  · rw [List.range'_append_1, places, Nat.add_sub_cancel' (Nat.min_le_left _ _)]
  · obtain ⟨hi, hi'⟩ := List.mem_range'_1.mp hi
    omega
  · obtain ⟨hi, hi'⟩ := List.mem_range'_1.mp hi
    omega

/-- A column of a row: what is shown for its cells, and the same for every place that is left over. -/
theorem flatMap_column (t : Tape) (k : Nat) {f : Nat → List Char} (shape : Cell → List Char)
    (padding : List Char) (hused : ∀ i < t.size, f i = shape (t.cellAt i))
    (hleft : ∀ i, t.size ≤ i → f i = padding) :
    (places k).flatMap f = ((t.cells.drop (16 * k)).take 16).flatMap shape ++
      (List.replicate (16 - ((t.cells.drop (16 * k)).take 16).length) padding).flatten := by
  obtain ⟨used, left, hplaces, hcells, husedOn, hleftOff, hlength⟩ := places_eq t k
  rw [hplaces, hcells, List.flatMap_append, List.flatMap_map, List.length_map, ← hlength]
  congr 1
  · rw [List.flatMap_def, List.flatMap_def]
    exact congrArg _ (List.map_congr_left fun i hi ↦ hused i (husedOn i hi))
  · rw [List.flatMap_def, List.map_eq_replicate_iff.mpr fun i hi ↦ hleft i (hleftOff i hi)]

theorem byteAt_of_le {t : Tape} {i : Nat} (h : t.size ≤ i) : byteAt t i = 0 := by
  rw [byteAt, Array.getD_eq_getD_getElem?, Array.getElem?_eq_none h, Option.getD_none]

theorem placed_of_lt (color : Bool) {t : Tape} {a : Tape.Address} {i : Nat} (h : i < t.size)
    (text : List Char) : placed color t a i text = cellText color (t.cellAt i) (t.index a) text :=
  if_pos h

theorem placed_of_le (color : Bool) {t : Tape} {a : Tape.Address} {i : Nat} (h : t.size ≤ i)
    (text : List Char) : placed color t a i text = text :=
  if_neg (Nat.not_lt.mpr h)

/-- Without color nothing is styled. -/
theorem placed_false (t : Tape) (a : Tape.Address) (i : Nat) (text : List Char) :
    placed false t a i text = text := by
  rw [placed, cellText]
  split <;> rfl

/-- A row of the cells of a tape shows its places. -/
theorem rowChars_cells (color : Bool) (t : Tape) (a : Tape.Address) (k : Nat) :
    rowChars color (16 * k : Nat) ((t.cells.drop (16 * k)).take 16) (t.index a) =
      rowAt color t a k := by
  have hhex : (places k).flatMap
      (fun i ↦ ' ' :: placed color t a i (Text.upperHexByte (byteAt t i))) = _ :=
    flatMap_column t k (fun c ↦ ' ' :: cellText color c (t.index a) (Text.upperHexByte c.value))
      [' ', '0', '0'] (fun i hi ↦ by rw [placed_of_lt color hi]; rfl)
      (fun i hi ↦ by rw [placed_of_le color hi, byteAt_of_le hi]; rfl)
  have hshown : (places k).flatMap (fun i ↦ placed color t a i [shown (byteAt t i)]) = _ :=
    flatMap_column t k (fun c ↦ cellText color c (t.index a) [shown c.value]) ['.']
      (fun i hi ↦ by rw [placed_of_lt color hi]; rfl)
      (fun i hi ↦ by rw [placed_of_le color hi, byteAt_of_le hi]; rfl)
  rw [rowAt, hhex, hshown, List.flatten_replicate_singleton, rowChars, rowWidth]
  simp only [List.append_assoc]

/-- **The rows of the dump of a tape.** -/
theorem rows?_snapshot (color : Bool) (t : Tape) (a : Tape.Address) :
    rows? color (t.snapshot a) =
      some ((List.range (rowCount t.size)).map fun k ↦ String.ofList (rowAt color t a k)) := by
  have hrows := rowsFrom_chunksFor color (t.index a) t.cells.length 0 t.cells (Nat.le_refl _)
  rw [rows?, t.cells?_snapshot a, Option.map_some, chunks]
  refine congrArg some (hrows.trans ?_)
  rw [Tape.length_cells]
  refine List.map_congr_left fun k _ ↦ ?_
  rw [Nat.zero_add, row, rowChars_cells]

/-- **The text of the dump of a tape.** -/
theorem text?_snapshot (color : Bool) (t : Tape) (a : Tape.Address) :
    text? color (t.snapshot a) =
      some (String.ofList ((List.range (rowCount t.size)).flatMap (rowAt color t a))) := by
  rw [text?, rows?_snapshot, Option.map_some]
  refine congrArg some (String.toList_injective ?_)
  rw [String.toList_join, String.toList_ofList, List.flatMap_map]
  simp only [String.toList_ofList]

end TapeMachine.Dump
