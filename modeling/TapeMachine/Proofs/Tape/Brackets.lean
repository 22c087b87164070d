import TapeMachine.Proofs.Tape.Layout
import TapeMachine.Tape.Scan

/-!
# Brackets in words

The two scans of a tape walk in opposite directions and are otherwise the same walk.  This file says so:
both are `seek` on a word, the forward scan on what lies behind the bracket (`scanForward_eq`) and the
backward scan on what lies before it, read from right to left (`scanBackward_eq`).  Whatever is proved
about `seek` holds of both.

A word is `Balanced` when its brackets pair up inside it.  A walk crosses a balanced word without
noticing it (`Balanced.seek_append`), and a balanced word is balanced from right to left as well
(`Balanced.reverse`).  Together they give the one statement about scans that is used elsewhere: of two
brackets with a balanced word between them, each is found by the scan that starts at the other
(`Partners.scanForward` and `Partners.scanBackward`).
-/

set_option autoImplicit false
namespace TapeMachine

open Operator (loopByte againByte)

/-- How many bytes of a word come before the first `out` that leads out of it, when the walk begins
inside `depth` brackets and every `deeper` leads into one more. -/
def seek (deeper out : UInt8) : Nat → List UInt8 → Option Nat
  | _, [] => none
  | depth, b :: w =>
    if b = deeper then (seek deeper out (depth + 1) w).map (· + 1)
    else if b = out then
      match depth with
      | 0 => some 0
      | depth + 1 => (seek deeper out depth w).map (· + 1)
    else (seek deeper out depth w).map (· + 1)

section Seek

variable {deeper out : UInt8}

theorem seek_deeper (depth : Nat) (w : List UInt8) :
    seek deeper out depth (deeper :: w) = (seek deeper out (depth + 1) w).map (· + 1) := by
  cases depth <;> simp [seek]

theorem seek_out_zero (h : deeper ≠ out) (w : List UInt8) :
    seek deeper out 0 (out :: w) = some 0 := by
  simp [seek, h.symm]

theorem seek_out_succ (h : deeper ≠ out) (depth : Nat) (w : List UInt8) :
    seek deeper out (depth + 1) (out :: w) = (seek deeper out depth w).map (· + 1) := by
  simp [seek, h.symm]

theorem seek_plain {b : UInt8} (hd : b ≠ deeper) (ho : b ≠ out) (depth : Nat) (w : List UInt8) :
    seek deeper out depth (b :: w) = (seek deeper out depth w).map (· + 1) := by
  cases depth <;> simp [seek, hd, ho]

/-- A walk ends on a bracket that leads out. -/
theorem getElem?_of_seek (hne : deeper ≠ out) {w : List UInt8} : ∀ {depth k : Nat},
    seek deeper out depth w = some k → w[k]? = some out := by
  induction w with
  | nil => intro depth k h; cases h
  | cons b w ih =>
    have hnext : ∀ {depth k : Nat}, (seek deeper out depth w).map (· + 1) = some k →
        (b :: w)[k]? = some out := by
      intro depth k h
      obtain ⟨j, hj, rfl⟩ := Option.map_eq_some_iff.mp h
      simpa using ih hj
    intro depth k h
    by_cases hd : b = deeper
    · rw [hd, seek_deeper] at h
      exact hnext h
    · by_cases ho : b = out
      · subst ho
        cases depth with
        | zero => rw [seek_out_zero hne] at h; cases h; rfl
        | succ depth => rw [seek_out_succ hne] at h; exact hnext h
      · rw [seek_plain hd ho] at h
        exact hnext h

/-- A walk ends inside its word. -/
theorem lt_length_of_seek (hne : deeper ≠ out) {w : List UInt8} {depth k : Nat}
    (h : seek deeper out depth w = some k) : k < w.length :=
  (List.getElem?_eq_some_iff.mp (getElem?_of_seek hne h)).1

end Seek

theorem loopByte_ne_againByte : loopByte ≠ againByte := by decide

/-! ## The scans of a tape -/

namespace Tape

theorem bytes_getD (t : Tape) {i : Nat} (hi : i < t.bytes.toList.length) :
    t.bytes.getD i 0 = t.bytes.toList[i] := by
  rw [Array.getD_eq_getD_getElem?, ← Array.getElem?_toList, List.getElem?_eq_getElem hi,
    Option.getD_some]

theorem seekClose_eq (t : Tape) : ∀ (left depth i : Nat), i + left = t.bytes.size →
    t.seekClose left depth i
      = (seek loopByte againByte depth (t.bytes.toList.drop i)).map (i + ·)
  | 0, depth, i, h => by
    rw [List.drop_of_length_le (by rw [Array.length_toList]; omega)]
    cases depth <;> rfl
  | left + 1, depth, i, h => by
    have hi : i < t.bytes.toList.length := by rw [Array.length_toList]; omega
    obtain ⟨b, hb, hdrop⟩ : ∃ b, t.bytes.getD i 0 = b ∧
        t.bytes.toList.drop i = b :: t.bytes.toList.drop (i + 1) :=
      ⟨_, t.bytes_getD hi, List.drop_eq_getElem_cons hi⟩
    have hnext : ∀ depth : Nat, t.seekClose left depth (i + 1)
        = ((seek loopByte againByte depth (t.bytes.toList.drop (i + 1))).map (· + 1)).map
            (i + ·) := by
      intro depth
      rw [seekClose_eq t left depth (i + 1) (by omega), Option.map_map]
      congr 1
      funext k
      simp only [Function.comp_apply]
      omega
    rw [hdrop]
    by_cases hd : b = loopByte
    · subst hd
      rw [seek_deeper, ← hnext]
      cases depth <;> simp only [seekClose, hb, if_true]
    · by_cases ho : b = againByte
      · subst ho
        cases depth with
        | zero =>
          rw [seek_out_zero loopByte_ne_againByte]
          simp only [seekClose, hb, if_neg hd, if_true]
          rfl
        | succ depth =>
          rw [seek_out_succ loopByte_ne_againByte, ← hnext]
          simp only [seekClose, hb, if_neg hd, if_true]
      · rw [seek_plain hd ho, ← hnext]
        cases depth <;> simp only [seekClose, hb, if_neg hd, if_neg ho]

theorem seekOpen_eq (t : Tape) : ∀ (left depth : Nat), left ≤ t.bytes.size →
    t.seekOpen left depth
      = (seek againByte loopByte depth (t.bytes.toList.take left).reverse).map (left - 1 - ·)
  | 0, depth, _ => by cases depth <;> rfl
  | left + 1, depth, h => by
    have hi : left < t.bytes.toList.length := by rw [Array.length_toList]; omega
    obtain ⟨b, hb, htake⟩ : ∃ b, t.bytes.getD left 0 = b ∧
        (t.bytes.toList.take (left + 1)).reverse = b :: (t.bytes.toList.take left).reverse :=
      ⟨_, t.bytes_getD hi, by rw [List.take_succ_eq_append_getElem hi, List.reverse_append]; rfl⟩
    have hnext : ∀ depth : Nat, t.seekOpen left depth
        = ((seek againByte loopByte depth (t.bytes.toList.take left).reverse).map (· + 1)).map
            (left + 1 - 1 - ·) := by
      intro depth
      rw [seekOpen_eq t left depth (by omega), Option.map_map]
      congr 1
      funext k
      simp only [Function.comp_apply]
      omega
    rw [htake]
    by_cases hd : b = againByte
    · subst hd
      rw [seek_deeper, ← hnext]
      cases depth <;> simp only [seekOpen, hb, if_true]
    · by_cases ho : b = loopByte
      · subst ho
        cases depth with
        | zero =>
          rw [seek_out_zero loopByte_ne_againByte.symm]
          simp only [seekOpen, hb, if_neg hd, if_true]
          rfl
        | succ depth =>
          rw [seek_out_succ loopByte_ne_againByte.symm, ← hnext]
          simp only [seekOpen, hb, if_neg hd, if_true]
      · rw [seek_plain hd ho, ← hnext]
        cases depth <;> simp only [seekOpen, hb, if_neg hd, if_neg ho]

/-- The forward scan is a walk over what lies behind its beginning, also where that is not on the tape. -/
theorem scanForward_of_le {t : Tape} {ip : Int} (hlow : -1 ≤ ip) (hip : IsWord (ip + 1)) :
    t.scanForward ip =
      match seek loopByte againByte 0 (t.bytes.toList.drop (ip + 1).toNat) with
      | some k => .found ((ip + 1).toNat + k)
      | none => .unmatched (max t.size (ip + 1)) := by
  obtain ⟨s, hs⟩ := Int.eq_ofNat_of_zero_le (show 0 ≤ ip + 1 by omega)
  rw [scanForward, wrap_eq_self hip, hs, if_neg (by omega), Int.toNat_natCast]
  have hseek : t.seekClose (t.size - s) 0 s
      = (seek loopByte againByte 0 (t.bytes.toList.drop s)).map (s + ·) := by
    rcases Nat.le_total s t.size with hle | hge
    · exact seekClose_eq t _ 0 s (Nat.add_sub_cancel' hle)
    · rw [List.drop_of_length_le (by rwa [Array.length_toList]), Nat.sub_eq_zero_of_le hge]
      rfl
  rw [hseek]
  cases seek loopByte againByte 0 (t.bytes.toList.drop s) <;> rfl

/-- The backward scan is a walk over what lies before its beginning, from right to left. -/
theorem scanBackward_of_le {t : Tape} {ip : Int} (hip : IsWord (ip - 1)) (hhigh : ip ≤ t.size) :
    t.scanBackward ip =
      match seek againByte loopByte 0 (t.bytes.toList.take ip.toNat).reverse with
      | some k => .found (ip.toNat - 1 - k)
      | none => .unmatched (min (-1) (ip - 1)) := by
  rw [scanBackward, wrap_eq_self hip, if_neg (by omega), show ip - 1 + 1 = ip by omega,
    seekOpen_eq t _ 0 (by unfold size at hhigh; omega)]
  cases seek againByte loopByte 0 (t.bytes.toList.take ip.toNat).reverse <;> rfl

/-- The forward scan is a walk over what lies behind the bracket. -/
theorem scanForward_eq {t : Tape} (ht : IsWord t.size) {i : Nat} (hi : i < t.size) :
    t.scanForward i =
      match seek loopByte againByte 0 (t.bytes.toList.drop (i + 1)) with
      | some k => .found (i + 1 + k)
      | none => .unmatched t.size := by
  rw [scanForward_of_le (by omega) (by unfold IsWord at *; omega),
    show ((i : Int) + 1).toNat = i + 1 by omega, show max (t.size : Int) (i + 1) = t.size by omega]

/-- The backward scan is a walk over what lies before the bracket, from right to left. -/
theorem scanBackward_eq {t : Tape} (ht : IsWord t.size) {i : Nat} (hi : i < t.size) :
    t.scanBackward i =
      match seek againByte loopByte 0 (t.bytes.toList.take i).reverse with
      | some k => .found (i - 1 - k)
      | none => .unmatched (-1) := by
  rw [scanBackward_of_le (by unfold IsWord at *; omega) (by omega), Int.toNat_natCast,
    show min (-1) ((i : Int) - 1) = -1 by omega]

/-- The forward scan from behind a part of the tape. -/
theorem scanForward_of_toList {t : Tape} (ht : IsWord t.size) {pre post : List UInt8} {b : UInt8}
    (h : t.bytes.toList = pre ++ b :: post) :
    t.scanForward pre.length =
      match seek loopByte againByte 0 post with
      | some k => .found (pre.length + 1 + k)
      | none => .unmatched t.size := by
  have hi : pre.length < t.size := by
    rw [size, ← Array.length_toList, h, List.length_append, List.length_cons]
    omega
  have hdrop : t.bytes.toList.drop (pre.length + 1) = post := by
    rw [h, List.drop_append, List.drop_of_length_le (by omega)]
    simp
  rw [scanForward_eq ht hi, hdrop]

/-- The backward scan from behind a part of the tape. -/
theorem scanBackward_of_toList {t : Tape} (ht : IsWord t.size) {pre post : List UInt8} {b : UInt8}
    (h : t.bytes.toList = pre ++ b :: post) :
    t.scanBackward pre.length =
      match seek againByte loopByte 0 pre.reverse with
      | some k => .found (pre.length - 1 - k)
      | none => .unmatched (-1) := by
  have hi : pre.length < t.size := by
    rw [size, ← Array.length_toList, h, List.length_append, List.length_cons]
    omega
  have htake : t.bytes.toList.take pre.length = pre := by
    rw [h, List.take_left]
  rw [scanBackward_eq ht hi, htake]

end Tape

/-! ## Balanced words -/

/-- The brackets of a word pair up inside it: every `deeper` has its `out`, and the two enclose a
balanced word. -/
inductive Balanced (deeper out : UInt8) : List UInt8 → Prop
  | nil : Balanced deeper out []
  | cons {b : UInt8} {w : List UInt8} (hd : b ≠ deeper) (ho : b ≠ out)
      (hw : Balanced deeper out w) : Balanced deeper out (b :: w)
  | nest {u w : List UInt8} (hu : Balanced deeper out u) (hw : Balanced deeper out w) :
      Balanced deeper out (deeper :: (u ++ out :: w))

namespace Balanced

variable {deeper out : UInt8}

theorem append {u w : List UInt8} (hu : Balanced deeper out u) (hw : Balanced deeper out w) :
    Balanced deeper out (u ++ w) := by
  induction hu with
  | nil => exact hw
  | cons hd ho _ ih => exact ih.cons hd ho
  | nest hu _ _ ih =>
    rw [List.cons_append, List.append_assoc, List.cons_append]
    exact hu.nest ih

/-- From right to left the two brackets change places. -/
theorem reverse {w : List UInt8} (hw : Balanced deeper out w) :
    Balanced out deeper w.reverse := by
  induction hw with
  | nil => exact nil
  | cons hd ho _ ih =>
    rw [List.reverse_cons]
    exact ih.append (nil.cons ho hd)
  | nest _ _ ihu ihw =>
    rw [List.reverse_cons, List.reverse_append, List.reverse_cons, List.append_assoc,
      List.append_assoc, List.singleton_append]
    exact ihw.append (ihu.nest nil)

/-- **A walk does not notice a balanced word.** -/
theorem seek_append (hne : deeper ≠ out) {u : List UInt8} (hu : Balanced deeper out u) :
    ∀ (depth : Nat) (w : List UInt8),
      seek deeper out depth (u ++ w) = (seek deeper out depth w).map (u.length + ·) := by
  induction hu with
  | nil =>
    intro depth w
    rw [List.nil_append]
    cases seek deeper out depth w <;> simp
  | cons hd ho _ ih =>
    intro depth w
    rw [List.cons_append, seek_plain hd ho, ih, Option.map_map]
    congr 1
    funext k
    simp only [Function.comp_apply, List.length_cons]
    omega
  | nest _ _ ihu ihw =>
    intro depth w
    rw [List.cons_append, List.append_assoc, List.cons_append, seek_deeper, ihu,
      seek_out_succ hne, ihw, Option.map_map, Option.map_map, Option.map_map]
    congr 1
    funext k
    simp only [Function.comp_apply, List.length_cons, List.length_append]
    omega

/-- Behind a balanced word the first bracket that leads out ends the walk. -/
theorem seek_append_out (hne : deeper ≠ out) {u : List UInt8} (hu : Balanced deeper out u)
    (w : List UInt8) : seek deeper out 0 (u ++ out :: w) = some u.length := by
  rw [hu.seek_append hne, seek_out_zero hne]
  rfl

end Balanced

/-! ## Partners -/

/-- In a word, a `[` at `i` and a `]` at `j` enclose a balanced word. -/
def Partners (w : List UInt8) (i j : Nat) : Prop :=
  ∃ pre u post, w = pre ++ loopByte :: (u ++ againByte :: post) ∧ Balanced loopByte againByte u ∧
    pre.length = i ∧ i + 1 + u.length = j

namespace Partners

theorem getElem?_left {w : List UInt8} {i j : Nat} (h : Partners w i j) : w[i]? = some loopByte := by
  obtain ⟨pre, u, post, rfl, -, rfl, -⟩ := h
  simp

theorem getElem?_right {w : List UInt8} {i j : Nat} (h : Partners w i j) :
    w[j]? = some againByte := by
  obtain ⟨pre, u, post, rfl, -, rfl, rfl⟩ := h
  rw [List.getElem?_append_right (by omega),
    show pre.length + 1 + u.length - pre.length = u.length + 1 by omega, List.getElem?_cons_succ]
  simp

/-- The `[` of two partners on a tape, as it is fetched. -/
theorem get?_left {t : Tape} {i j : Nat} (h : Partners t.bytes.toList i j) :
    t.get? i = some loopByte := by
  rw [t.get?_natCast, ← Array.getElem?_toList, h.getElem?_left]

/-- The `]` of two partners on a tape, as it is fetched. -/
theorem get?_right {t : Tape} {i j : Nat} (h : Partners t.bytes.toList i j) :
    t.get? j = some againByte := by
  rw [t.get?_natCast, ← Array.getElem?_toList, h.getElem?_right]

/-- Partners in the program are partners on the tape. -/
theorem of_code {t : Tape} {i j : Nat} (h : Partners t.code i j) :
    Partners t.bytes.toList (i + 1) (j + 1) := by
  obtain ⟨pre, u, post, hw, hu, rfl, rfl⟩ := h
  refine ⟨t.storage :: pre, u, post ++ t.data, ?_, hu, rfl, by omega⟩
  rw [t.toList_bytes, hw]
  simp

theorem scanForward {t : Tape} (ht : IsWord t.size) {i j : Nat}
    (h : Partners t.bytes.toList i j) : t.scanForward i = .found j := by
  obtain ⟨pre, u, post, hw, hu, rfl, rfl⟩ := h
  rw [Tape.scanForward_of_toList ht hw, hu.seek_append_out loopByte_ne_againByte]

theorem scanBackward {t : Tape} (ht : IsWord t.size) {i j : Nat}
    (h : Partners t.bytes.toList i j) : t.scanBackward j = .found i := by
  obtain ⟨pre, u, post, hw, hu, rfl, rfl⟩ := h
  have hsplit : t.bytes.toList = (pre ++ loopByte :: u) ++ againByte :: post := by
    rw [hw]
    simp
  have hlen : (pre ++ loopByte :: u).length = pre.length + 1 + u.length := by
    rw [List.length_append, List.length_cons]
    omega
  have hscan := Tape.scanBackward_of_toList ht hsplit
  rw [List.reverse_append, List.reverse_cons, List.append_assoc, List.singleton_append,
    hu.reverse.seek_append_out loopByte_ne_againByte.symm, List.length_reverse, hlen] at hscan
  rw [hscan]
  exact congrArg Scan.found (by omega)

end Partners
end TapeMachine
