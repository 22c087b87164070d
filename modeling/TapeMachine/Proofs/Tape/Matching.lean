import TapeMachine.Proofs.Tape.Pairing

/-!
# What a scan finds is a partner

Two brackets with a balanced word between them are found by the scans that start at them
(`Partners.scanForward`, `Partners.scanBackward`).  Here is the converse: there is nothing else that a scan
finds.  So `Partners`, which speaks of balanced words, and the walks, which count, are two descriptions of
one relation, and what is easy to see of one of them holds of both.

* What a walk crosses on its way out of `depth` brackets is a balanced word for each of them, and one more at
  the end.  This is `Rises`, and `exists_rises_of_seek` is the induction along the walk.
* `partners_iff_seek` and `partners_iff_seek_reverse` say that partners are what walks find, forward and
  backward.  A walk has one end only, so a bracket has one partner only (`Partners.right_unique`,
  `Partners.left_unique`).
* Whether two brackets are partners depends on what stands between them and on nothing else.  So partners on
  the tape are partners in the program, if both stand in the program (`partners_code_iff`).
* Partners is a relation without a direction.  So where a forward scan leads, a backward scan leads back
  (`Tape.scans_inverse`).
-/

set_option autoImplicit false
namespace TapeMachine

open Operator (loopByte againByte)

/-! ## What a walk crosses -/

/-- A word that leads out of `depth` brackets, and is balanced apart from that. -/
inductive Rises (deeper out : UInt8) : Nat → List UInt8 → Prop
  | level {u : List UInt8} (hu : Balanced deeper out u) : Rises deeper out 0 u
  | rise {depth : Nat} {u w : List UInt8} (hu : Balanced deeper out u) (hw : Rises deeper out depth w) :
      Rises deeper out (depth + 1) (u ++ out :: w)

section Words

variable {deeper out : UInt8}

theorem Balanced.rises_append {depth : Nat} {u w : List UInt8} (hu : Balanced deeper out u)
    (hw : Rises deeper out depth w) : Rises deeper out depth (u ++ w) := by
  cases hw with
  | level hw => exact .level (hu.append hw)
  | rise hu' hw =>
    rw [← List.append_assoc]
    exact .rise (hu.append hu') hw

/-- **A walk ends behind a word that leads out of the brackets it began in.** -/
theorem exists_rises_of_seek (hne : deeper ≠ out) {w : List UInt8} : ∀ {depth k : Nat},
    seek deeper out depth w = some k →
      ∃ u v, w = u ++ out :: v ∧ Rises deeper out depth u ∧ u.length = k := by
  induction w with
  | nil =>
    intro depth k h
    cases h
  | cons b w ih =>
    intro depth k h
    by_cases hd : b = deeper
    · subst hd
      rw [seek_deeper] at h
      obtain ⟨j, hj, rfl⟩ := Option.map_eq_some_iff.mp h
      obtain ⟨u, v, rfl, hu, rfl⟩ := ih hj
      -- the bracket that was entered is left again within `u`, and the two enclose a balanced word
      cases hu with
      | @rise _ u₁ u₂ hu₁ hu₂ =>
        refine ⟨b :: (u₁ ++ out :: u₂), v, rfl, ?_, rfl⟩
        have hnest : Balanced b out (b :: (u₁ ++ [out])) := hu₁.nest .nil
        simpa using hnest.rises_append hu₂
    · by_cases ho : b = out
      · subst ho
        cases depth with
        | zero =>
          rw [seek_out_zero hne] at h
          cases h
          exact ⟨[], w, rfl, .level .nil, rfl⟩
        | succ depth =>
          rw [seek_out_succ hne] at h
          obtain ⟨j, hj, rfl⟩ := Option.map_eq_some_iff.mp h
          obtain ⟨u, v, rfl, hu, rfl⟩ := ih hj
          exact ⟨b :: u, v, rfl, .rise .nil hu, rfl⟩
      · rw [seek_plain hd ho] at h
        obtain ⟨j, hj, rfl⟩ := Option.map_eq_some_iff.mp h
        obtain ⟨u, v, rfl, hu, rfl⟩ := ih hj
        have hplain : Balanced deeper out [b] := .cons hd ho .nil
        exact ⟨b :: u, v, rfl, hplain.rises_append hu, rfl⟩

/-- A walk that begins inside no brackets crosses a balanced word. -/
theorem exists_balanced_of_seek (hne : deeper ≠ out) {w : List UInt8} {k : Nat}
    (h : seek deeper out 0 w = some k) :
    ∃ u v, w = u ++ out :: v ∧ Balanced deeper out u ∧ u.length = k := by
  obtain ⟨u, v, hw, hu, hk⟩ := exists_rises_of_seek hne h
  cases hu with
  | level hu => exact ⟨u, v, hw, hu, hk⟩

end Words

/-! ## Partners are what walks find -/

theorem eq_take_append_of_getElem? {w : List UInt8} {i : Nat} {b : UInt8} (h : w[i]? = some b) :
    w = w.take i ++ b :: w.drop (i + 1) ∧ (w.take i).length = i := by
  obtain ⟨hi, rfl⟩ := List.getElem?_eq_some_iff.mp h
  exact ⟨by rw [← List.drop_eq_getElem_cons hi, List.take_append_drop],
    List.length_take_of_le (Nat.le_of_lt hi)⟩

/-- Partners are found forward. -/
theorem partners_iff_seek {w : List UInt8} {i j : Nat} : Partners w i j ↔
    w[i]? = some loopByte ∧
      ∃ k, seek loopByte againByte 0 (w.drop (i + 1)) = some k ∧ j = i + 1 + k := by
  constructor
  · intro h
    refine ⟨h.getElem?_left, ?_⟩
    obtain ⟨pre, u, post, rfl, hu, rfl, rfl⟩ := h
    refine ⟨u.length, ?_, rfl⟩
    rw [← List.drop_drop, List.drop_left, List.drop_one, List.tail_cons,
      hu.seek_append_out loopByte_ne_againByte]
  · rintro ⟨hi, k, hk, rfl⟩
    obtain ⟨hw, hlen⟩ := eq_take_append_of_getElem? hi
    obtain ⟨u, v, hdrop, hu, rfl⟩ := exists_balanced_of_seek loopByte_ne_againByte hk
    rw [hdrop] at hw
    exact ⟨w.take i, u, v, hw, hu, hlen, rfl⟩

/-- Partners are found backward. -/
theorem partners_iff_seek_reverse {w : List UInt8} {i j : Nat} : Partners w i j ↔
    w[j]? = some againByte ∧
      ∃ k, seek againByte loopByte 0 (w.take j).reverse = some k ∧ j = i + 1 + k := by
  constructor
  · intro h
    refine ⟨h.getElem?_right, ?_⟩
    obtain ⟨pre, u, post, rfl, hu, rfl, rfl⟩ := h
    refine ⟨u.length, ?_, rfl⟩
    have hsplit : pre ++ loopByte :: (u ++ againByte :: post)
        = (pre ++ loopByte :: u) ++ againByte :: post := by simp
    have hlen : pre.length + 1 + u.length = (pre ++ loopByte :: u).length := by simp; omega
    rw [hsplit, hlen, List.take_left, List.reverse_append, List.reverse_cons, List.append_assoc,
      List.singleton_append, hu.reverse.seek_append_out loopByte_ne_againByte.symm,
      List.length_reverse]
  · rintro ⟨hj, k, hk, hij⟩
    obtain ⟨hw, hlen⟩ := eq_take_append_of_getElem? hj
    obtain ⟨u, v, htake, hu, rfl⟩ := exists_balanced_of_seek loopByte_ne_againByte.symm hk
    rw [List.reverse_eq_iff, List.reverse_append, List.reverse_cons, List.append_assoc] at htake
    rw [htake, List.append_assoc] at hw
    have hlength : j = v.length + 1 + u.length := by
      rw [← hlen, htake]
      simp
      omega
    exact ⟨v.reverse, u.reverse, w.drop (j + 1), by simpa using hw, hu.reverse,
      by simp; omega, by simp; omega⟩

/-- A walk forward from a `[` ends at its partner. -/
theorem partners_of_seek {w : List UInt8} {i k : Nat} (hi : w[i]? = some loopByte)
    (hk : seek loopByte againByte 0 (w.drop (i + 1)) = some k) : Partners w i (i + 1 + k) :=
  partners_iff_seek.mpr ⟨hi, k, hk, rfl⟩

/-- A walk backward from a `]` ends at its partner. -/
theorem partners_of_seek_reverse {w : List UInt8} {j k : Nat} (hj : w[j]? = some againByte)
    (hk : seek againByte loopByte 0 (w.take j).reverse = some k) : Partners w (j - 1 - k) j := by
  have hlt := lt_length_of_seek loopByte_ne_againByte.symm hk
  rw [List.length_reverse, List.length_take] at hlt
  exact partners_iff_seek_reverse.mpr ⟨hj, k, hk, by omega⟩

namespace Partners

variable {w x : List UInt8} {i j k : Nat}

theorem lt (h : Partners w i j) : i < j := by
  obtain ⟨-, -, -, -, -, -, rfl⟩ := h
  omega

theorem lt_length (h : Partners w i j) : j < w.length :=
  (List.getElem?_eq_some_iff.mp h.getElem?_right).1

/-- **A `[` has one partner.** -/
theorem right_unique (h : Partners w i j) (h' : Partners w i k) : j = k := by
  obtain ⟨-, n, hn, rfl⟩ := partners_iff_seek.mp h
  obtain ⟨-, n', hn', rfl⟩ := partners_iff_seek.mp h'
  rw [hn] at hn'
  rw [Option.some.inj hn']

/-- **A `]` has one partner.** -/
theorem left_unique (h : Partners w i k) (h' : Partners w j k) : i = j := by
  obtain ⟨-, n, hn, hi⟩ := partners_iff_seek_reverse.mp h
  obtain ⟨-, n', hn', hj⟩ := partners_iff_seek_reverse.mp h'
  rw [hn] at hn'
  have hnn := Option.some.inj hn'
  omega

/-- No bracket is the `[` of one pair and the `]` of another. -/
theorem ne_of_partners (h : Partners w i j) (h' : Partners w k i) : False := by
  have hbyte := h.getElem?_left
  rw [h'.getElem?_right] at hbyte
  exact loopByte_ne_againByte (Option.some.inj hbyte).symm

/-- What comes behind two partners is no matter. -/
theorem of_append (h : Partners (w ++ x) i j) (hj : j < w.length) : Partners w i j := by
  obtain ⟨hj', k, hk, hij⟩ := partners_iff_seek_reverse.mp h
  rw [List.getElem?_append_left hj] at hj'
  rw [List.take_append_of_le_length (Nat.le_of_lt hj)] at hk
  exact partners_iff_seek_reverse.mpr ⟨hj', k, hk, hij⟩

/-- Nor is what comes before them. -/
theorem of_cons {b : UInt8} (h : Partners (b :: w) (i + 1) (j + 1)) : Partners w i j := by
  obtain ⟨hi, k, hk, hij⟩ := partners_iff_seek.mp h
  rw [List.getElem?_cons_succ] at hi
  rw [List.drop_succ_cons] at hk
  exact partners_iff_seek.mpr ⟨hi, k, hk, by omega⟩

end Partners

/-! ## On a tape -/

/-- **Partners on the tape are partners in the program**, if that is where they stand. -/
theorem partners_code_iff {t : Tape} {i j : Nat} :
    Partners t.code i j ↔ Partners t.bytes.toList (i + 1) (j + 1) ∧ j < t.code.length := by
  constructor
  · intro h
    exact ⟨h.of_code, h.lt_length⟩
  · rintro ⟨h, hj⟩
    rw [t.toList_bytes] at h
    exact h.of_cons.of_append hj

namespace Tape

variable {t : Tape} {i j : Nat}

theorem getElem?_toList_of_get? {b : UInt8} (h : t.get? i = some b) : t.bytes.toList[i]? = some b := by
  rwa [get?_natCast, ← Array.getElem?_toList] at h

theorem lt_size_of_get? {b : UInt8} (h : t.get? i = some b) : i < t.size := by
  have hlt := (t.isSome_get? i).mp (Option.isSome_of_eq_some h)
  exact Int.ofNat_lt.mp hlt.2

/-- **What a forward scan from a `[` finds is its partner**, and it finds it if there is one. -/
theorem scanForward_eq_found_iff (ht : IsWord t.size) (hb : t.get? i = some loopByte) :
    t.scanForward i = .found j ↔ Partners t.bytes.toList i j := by
  constructor
  · intro h
    rw [scanForward_eq ht (lt_size_of_get? hb)] at h
    split at h
    · rename_i k hk
      cases h
      exact partners_of_seek (getElem?_toList_of_get? hb) hk
    · cases h
  · intro h
    exact h.scanForward ht

/-- **What a backward scan from a `]` finds is its partner**, and it finds it if there is one. -/
theorem scanBackward_eq_found_iff (ht : IsWord t.size) (hb : t.get? j = some againByte) :
    t.scanBackward j = .found i ↔ Partners t.bytes.toList i j := by
  constructor
  · intro h
    rw [scanBackward_eq ht (lt_size_of_get? hb)] at h
    split at h
    · rename_i k hk
      cases h
      exact partners_of_seek_reverse (getElem?_toList_of_get? hb) hk
    · cases h
  · intro h
    exact h.scanBackward ht

/-- A `[` and the place that a forward scan leads to from it are partners, and that is all partners are. -/
theorem leads_forward_iff (ht : IsWord t.size) :
    (t.get? i = some loopByte ∧ t.scanForward i = .found j) ↔ Partners t.bytes.toList i j := by
  constructor
  · rintro ⟨hb, hscan⟩
    exact (scanForward_eq_found_iff ht hb).mp hscan
  · intro h
    exact ⟨h.get?_left, h.scanForward ht⟩

/-- And so are a `]` and the place that a backward scan leads to from it. -/
theorem leads_backward_iff (ht : IsWord t.size) :
    (t.get? j = some againByte ∧ t.scanBackward j = .found i) ↔ Partners t.bytes.toList i j := by
  constructor
  · rintro ⟨hb, hscan⟩
    exact (scanBackward_eq_found_iff ht hb).mp hscan
  · intro h
    exact ⟨h.get?_right, h.scanBackward ht⟩

/-- **The two scans undo each other**, on all of the tape and whatever is on it.  There is a `[` at `i` from
which the forward scan leads to `j` exactly if there is a `]` at `j` from which the backward scan leads to
`i`.  The length of the tape is taken to be a word. -/
theorem scans_inverse {t : Tape} (ht : IsWord t.size) (i j : Nat) :
    (t.get? i = some loopByte ∧ t.scanForward i = .found j) ↔
      (t.get? j = some againByte ∧ t.scanBackward j = .found i) := by
  rw [leads_forward_iff ht, leads_backward_iff ht]

/-- The program `]][` between a `[` in the storage cell and a `]` in the data.  A pair of brackets may lie on
both sides of a border, and no scan leads to the `]` that is left over. -/
theorem scans_inverse_across :
    let t := ((ofProgram [0x5d, 0x5d, 0x5b] 2).put 0 0x5b).put 5 0x5d
    IsWord t.size ∧ t.scanForward 0 = .found 1 ∧ t.scanBackward 1 = .found 0 ∧
      t.scanBackward 5 = .found 3 ∧ t.scanForward 3 = .found 5 ∧
      t.scanBackward 2 = .unmatched (-1) ∧
      ∀ i : Nat, ¬ (t.get? i = some loopByte ∧ t.scanForward i = .found 2) := by
  intro t
  have ht : IsWord t.size := by decide
  have hforward : t.get? 0 = some loopByte ∧ t.scanForward 0 = .found 1 := by decide
  have hbackward : t.get? 5 = some againByte ∧ t.scanBackward 5 = .found 3 := by decide
  have hstray : t.scanBackward 2 = .unmatched (-1) := by decide
  refine ⟨ht, hforward.2, ((scans_inverse ht 0 1).mp hforward).2, hbackward.2,
    ((scans_inverse ht 3 5).mpr hbackward).2, hstray, fun i hi ↦ ?_⟩
  have hfound := ((scans_inverse ht i 2).mp hi).2
  rw [show ((2 : Nat) : Int) = 2 from rfl, hstray] at hfound
  cases hfound

end Tape
end TapeMachine
