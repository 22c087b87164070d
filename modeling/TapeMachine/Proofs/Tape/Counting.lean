import TapeMachine.Proofs.Tape.Reads

/-!
# Scans count brackets

A scan keeps one number, the depth it is at, and stops where that number drops below zero.  What it is
looking for can be said without a walk.  A `]` matches a `[` in front of it if the bytes behind the `[`, up
to and with the `]`, hold one more `]` than `[`, and if that is so nowhere earlier.

* `LeadsOut` is the count, for a word, and `FirstAt` says that a walk ended at the first place with some
  property, or that there is none.
* `firstAt_seek` is the induction: a walk ends at the first place where its word has led out.
* `Tape.Closes` and `Tape.Opens` are the same count on a tape, by tape index, and
  `scanForward_eq_found_iff` and `scanBackward_eq_found_iff` say that the scans find the least index with
  the one and the greatest index with the other.

A scan may begin anywhere, on a bracket or not, on the tape or just outside it, or far beyond the end it
walks towards.  Only a beginning beyond the other end is left out.
-/

set_option autoImplicit false
namespace TapeMachine

open Operator (loopByte againByte)

/-! ## Words -/

/-- The first `n` bytes of a word, read inside `depth` brackets, lead out of all of them and of one more. -/
def LeadsOut (deeper out : UInt8) (depth : Nat) (w : List UInt8) (n : Nat) : Prop :=
  (w.take n).count out = (w.take n).count deeper + depth + 1

/-- The answer of a search that takes one byte after the other: how many were taken before the first that
made `P` true, if there is one. -/
def FirstAt (P : Nat → Prop) : Option Nat → Prop
  | some k => P (k + 1) ∧ ∀ n ≤ k, ¬ P n
  | none => ∀ n, ¬ P n

/-- A byte in front moves the answer by one. -/
theorem FirstAt.cons {P Q : Nat → Prop} {r : Option Nat} (h : FirstAt Q r) (hzero : ¬ P 0)
    (hsucc : ∀ n, P (n + 1) ↔ Q n) : FirstAt P (r.map (· + 1)) := by
  cases r with
  | none =>
    rintro (_ | n)
    · exact hzero
    · rw [hsucc]
      exact h n
  | some k =>
    refine ⟨(hsucc _).mpr h.1, ?_⟩
    rintro (_ | n) hn
    · exact hzero
    · rw [hsucc]
      exact h.2 n (Nat.le_of_succ_le_succ hn)

/-- There is only one answer. -/
theorem FirstAt.eq_some_iff {P : Nat → Prop} {r : Option Nat} (h : FirstAt P r) {k : Nat} :
    r = some k ↔ P (k + 1) ∧ ∀ n, P (n + 1) → k ≤ n := by
  constructor
  · rintro rfl
    exact ⟨h.1, fun n hn ↦ Nat.le_of_not_lt fun hlt ↦ h.2 (n + 1) hlt hn⟩
  · rintro ⟨hk, hleast⟩
    cases r with
    | none => exact absurd hk (h (k + 1))
    | some j =>
      have hle : k ≤ j := hleast j h.1
      have hge : ¬ k < j := fun hlt ↦ h.2 (k + 1) hlt hk
      rw [show j = k by omega]

section Words

variable {deeper out : UInt8}

theorem not_leadsOut_zero (depth : Nat) (w : List UInt8) : ¬ LeadsOut deeper out depth w 0 := by
  simp [LeadsOut]

/-- **A walk ends where its word has led out for the first time.** -/
theorem firstAt_seek (hne : deeper ≠ out) (w : List UInt8) : ∀ depth : Nat,
    FirstAt (LeadsOut deeper out depth w) (seek deeper out depth w) := by
  induction w with
  | nil =>
    intro depth n
    simp [LeadsOut]
  | cons b w ih =>
    intro depth
    have hzero : ¬ LeadsOut deeper out depth (b :: w) 0 := not_leadsOut_zero depth (b :: w)
    by_cases hd : b = deeper
    · subst hd
      rw [seek_deeper]
      refine (ih (depth + 1)).cons hzero fun n ↦ ?_
      simp [LeadsOut, hne]
      omega
    · by_cases ho : b = out
      · subst ho
        cases depth with
        | zero =>
          rw [seek_out_zero hne]
          refine ⟨by simp [LeadsOut, hd], ?_⟩
          rintro n hn
          rwa [Nat.le_zero.mp hn]
        | succ depth =>
          rw [seek_out_succ hne]
          refine (ih depth).cons hzero fun n ↦ ?_
          simp [LeadsOut, hd]
          omega
      · rw [seek_plain hd ho]
        refine (ih depth).cons hzero fun n ↦ ?_
        simp [LeadsOut, hd, ho]

end Words

/-! ## Tapes -/

namespace Tape

/-- The bytes from index `i` on, up to but without index `j`. -/
def slice (t : Tape) (i j : Nat) : List UInt8 :=
  (t.bytes.extract i j).toList

/-- The bytes behind `ip`, up to and with index `j`, hold one more `]` than `[`. -/
def Closes (t : Tape) (ip : Int) (j : Nat) : Prop :=
  ip < j ∧ j < t.size ∧
    (t.slice (ip + 1).toNat (j + 1)).count againByte
      = (t.slice (ip + 1).toNat (j + 1)).count loopByte + 1

/-- The bytes from index `i` on, up to but without `ip`, hold one more `[` than `]`. -/
def Opens (t : Tape) (ip : Int) (i : Nat) : Prop :=
  i < ip ∧ i < t.size ∧
    (t.slice i ip.toNat).count loopByte = (t.slice i ip.toNat).count againByte + 1

instance (t : Tape) (ip : Int) (j : Nat) : Decidable (t.Closes ip j) :=
  inferInstanceAs (Decidable (_ ∧ _ ∧ _))

instance (t : Tape) (ip : Int) (i : Nat) : Decidable (t.Opens ip i) :=
  inferInstanceAs (Decidable (_ ∧ _ ∧ _))

theorem slice_eq (t : Tape) (i j : Nat) : t.slice i j = (t.bytes.toList.drop i).take (j - i) := by
  rw [slice, Array.toList_extract, List.extract_eq_take_drop]

variable {t : Tape} {ip : Int}

/-- The count of a forward scan is taken over what lies behind its beginning. -/
theorem closes_iff (hlow : -1 ≤ ip) (k : Nat) : t.Closes ip ((ip + 1).toNat + k) ↔
    (ip + 1).toNat + k < t.size ∧
      LeadsOut loopByte againByte 0 (t.bytes.toList.drop (ip + 1).toNat) (k + 1) := by
  have hlen : (ip + 1).toNat + k + 1 - (ip + 1).toNat = k + 1 := by omega
  rw [Closes, LeadsOut, slice_eq, hlen]
  exact ⟨fun h ↦ h.2, fun h ↦ ⟨by omega, h⟩⟩

/-- The count of a backward scan is taken over what lies before its beginning, from right to left. -/
theorem opens_iff (hhigh : ip ≤ t.size) {k : Nat} (hk : k < ip.toNat) : t.Opens ip (ip.toNat - 1 - k) ↔
    LeadsOut againByte loopByte 0 (t.bytes.toList.take ip.toNat).reverse (k + 1) := by
  have hlen : (t.bytes.toList.take ip.toNat).length = ip.toNat := by
    rw [List.length_take, Array.length_toList]
    exact Nat.min_eq_left (Int.toNat_le.mpr hhigh)
  have hslice : t.slice (ip.toNat - 1 - k) ip.toNat
      = ((t.bytes.toList.take ip.toNat).reverse.take (k + 1)).reverse := by
    rw [slice_eq, List.take_reverse, List.reverse_reverse, List.drop_take, hlen,
      show ip.toNat - 1 - k = ip.toNat - (k + 1) by omega]
  rw [Opens, LeadsOut, hslice, List.count_reverse, List.count_reverse]
  exact ⟨fun h ↦ h.2.2, fun h ↦ ⟨by omega, by omega, h⟩⟩

/-- A forward scan finds the least index that closes, or there is none. -/
theorem scanForward_cases (hlow : -1 ≤ ip) (hip : IsWord (ip + 1)) :
    (∃ j, t.scanForward ip = .found j ∧ t.Closes ip j ∧ ∀ k, t.Closes ip k → j ≤ k) ∨
      (t.scanForward ip = .unmatched (max t.size (ip + 1)) ∧ ∀ j, ¬ t.Closes ip j) := by
  have hfirst := firstAt_seek loopByte_ne_againByte (t.bytes.toList.drop (ip + 1).toNat) 0
  have hplace : ∀ j, t.Closes ip j → ∃ k, j = (ip + 1).toNat + k := by
    intro j hj
    have hlt := hj.1
    exact ⟨j - (ip + 1).toNat, by omega⟩
  rw [scanForward_of_le hlow hip]
  cases hseek : seek loopByte againByte 0 (t.bytes.toList.drop (ip + 1).toNat) with
  | none =>
    refine Or.inr ⟨rfl, fun j hj ↦ ?_⟩
    obtain ⟨k, rfl⟩ := hplace j hj
    rw [hseek] at hfirst
    exact hfirst _ ((closes_iff hlow k).mp hj).2
  | some k =>
    obtain ⟨hleads, hleast⟩ := hfirst.eq_some_iff.mp hseek
    have hlt : (ip + 1).toNat + k < t.size := by
      have hlt := lt_length_of_seek loopByte_ne_againByte hseek
      rw [List.length_drop, Array.length_toList] at hlt
      exact Nat.add_lt_of_lt_sub' hlt
    refine Or.inl ⟨_, rfl, (closes_iff hlow k).mpr ⟨hlt, hleads⟩, fun j hj ↦ ?_⟩
    obtain ⟨n, rfl⟩ := hplace j hj
    exact Nat.add_le_add_left (hleast n ((closes_iff hlow n).mp hj).2) _

/-- A backward scan finds the greatest index that opens, or there is none. -/
theorem scanBackward_cases (hip : IsWord (ip - 1)) (hhigh : ip ≤ t.size) :
    (∃ i, t.scanBackward ip = .found i ∧ t.Opens ip i ∧ ∀ k, t.Opens ip k → k ≤ i) ∨
      (t.scanBackward ip = .unmatched (min (-1) (ip - 1)) ∧ ∀ i, ¬ t.Opens ip i) := by
  have hfirst := firstAt_seek loopByte_ne_againByte.symm (t.bytes.toList.take ip.toNat).reverse 0
  have hplace : ∀ i, t.Opens ip i → ∃ k, k < ip.toNat ∧ i = ip.toNat - 1 - k := by
    intro i hi
    have hlt := hi.1
    exact ⟨ip.toNat - 1 - i, by omega, by omega⟩
  rw [scanBackward_of_le hip hhigh]
  cases hseek : seek againByte loopByte 0 (t.bytes.toList.take ip.toNat).reverse with
  | none =>
    refine Or.inr ⟨rfl, fun i hi ↦ ?_⟩
    obtain ⟨k, hk, rfl⟩ := hplace i hi
    rw [hseek] at hfirst
    exact hfirst _ ((opens_iff hhigh hk).mp hi)
  | some k =>
    obtain ⟨hleads, hleast⟩ := hfirst.eq_some_iff.mp hseek
    have hlt : k < ip.toNat := by
      have hlt := lt_length_of_seek loopByte_ne_againByte.symm hseek
      rw [List.length_reverse, List.length_take] at hlt
      omega
    refine Or.inl ⟨_, rfl, (opens_iff hhigh hlt).mpr hleads, fun i hi ↦ ?_⟩
    obtain ⟨n, hn, rfl⟩ := hplace i hi
    have hle := hleast n ((opens_iff hhigh hn).mp hi)
    omega

/-- **The scans match brackets by counting them**, wherever they begin.

* Forward, from the index before the tape or any later one: what is found is the least index behind the
  beginning up to which there has been one more `]` than `[`.  If there is none, the scan says so, and
  stands at the end of the tape, or where it began to look if that is behind the end.
* Backward, from the index behind the tape or any earlier one: what is found is the greatest index before
  the beginning from which on there is one more `[` than `]`.  If there is none, the scan says so, and
  stands in front of the tape, or where it began to look if that is before it.

No byte outside the tape is asked for.  The index at which a scan begins to look is taken to be a word. -/
theorem scans_count_brackets (t : Tape) (ip : Int) :
    (-1 ≤ ip → IsWord (ip + 1) →
      (∀ j, t.scanForward ip = .found j ↔ t.Closes ip j ∧ ∀ k, t.Closes ip k → j ≤ k) ∧
        ((∀ j, ¬ t.Closes ip j) → t.scanForward ip = .unmatched (max t.size (ip + 1))) ∧
        t.askForward ip ≠ .offTape) ∧
      (IsWord (ip - 1) → ip ≤ t.size →
        (∀ i, t.scanBackward ip = .found i ↔ t.Opens ip i ∧ ∀ k, t.Opens ip k → k ≤ i) ∧
          ((∀ i, ¬ t.Opens ip i) → t.scanBackward ip = .unmatched (min (-1) (ip - 1))) ∧
          t.askBackward ip ≠ .offTape) := by
  constructor
  · intro hlow hip
    rw [askForward_eq]
    rcases t.scanForward_cases hlow hip with ⟨j, hscan, hj, hleast⟩ | ⟨hscan, hnone⟩
    · rw [hscan]
      refine ⟨fun i ↦ ⟨?_, ?_⟩, fun hnone ↦ absurd hj (hnone j), nofun⟩
      · rintro ⟨⟩
        exact ⟨hj, hleast⟩
      · rintro ⟨hi, hmin⟩
        exact congrArg Scan.found (Nat.le_antisymm (hleast i hi) (hmin j hj))
    · rw [hscan]
      exact ⟨fun i ↦ ⟨nofun, fun h ↦ absurd h.1 (hnone i)⟩, fun _ ↦ rfl, nofun⟩
  · intro hip hhigh
    rw [askBackward_eq]
    rcases t.scanBackward_cases hip hhigh with ⟨i, hscan, hi, hgreatest⟩ | ⟨hscan, hnone⟩
    · rw [hscan]
      refine ⟨fun j ↦ ⟨?_, ?_⟩, fun hnone ↦ absurd hi (hnone i), nofun⟩
      · rintro ⟨⟩
        exact ⟨hi, hgreatest⟩
      · rintro ⟨hj, hmax⟩
        exact congrArg Scan.found (Nat.le_antisymm (hmax i hi) (hgreatest j hj))
    · rw [hscan]
      exact ⟨fun i ↦ ⟨nofun, fun h ↦ absurd h.1 (hnone i)⟩, fun _ ↦ rfl, nofun⟩

/-- The program `[[]]]`.  In front of the tape a scan passes over both loops and finds the stray `]`, and
from there none leads back; behind the tape there is nothing to look at. -/
theorem scans_count_brackets_stray :
    let t := ofProgram [0x5b, 0x5b, 0x5d, 0x5d, 0x5d] 1
    t.Closes (-1) 5 ∧ t.scanForward (-1) = .found 5 ∧
      t.scanForward 7 = .unmatched 8 ∧ t.askForward 7 ≠ .offTape ∧
      t.Opens 4 1 ∧ t.scanBackward 4 = .found 1 ∧
      t.scanBackward 5 = .unmatched (-1) ∧ t.askBackward 5 ≠ .offTape := by
  intro t
  have hcloses : t.Closes (-1) 5 := by decide
  have hleast : ∀ k < 5, ¬ t.Closes (-1) k := by decide
  have hopens : t.Opens 4 1 := by decide
  have hgreatest : ∀ k < t.size, t.Opens 4 k → k ≤ 1 := by decide
  have hnone : ∀ k < t.size, ¬ t.Opens 5 k := by decide
  obtain ⟨hfound, -, -⟩ := (t.scans_count_brackets (-1)).1 (by decide) (by decide)
  obtain ⟨-, hend, hask⟩ := (t.scans_count_brackets 7).1 (by decide) (by decide)
  obtain ⟨hback, -, -⟩ := (t.scans_count_brackets 4).2 (by decide) (by decide)
  obtain ⟨-, hstray, hask'⟩ := (t.scans_count_brackets 5).2 (by decide) (by decide)
  refine ⟨hcloses, (hfound 5).mpr ⟨hcloses, fun k hk ↦ ?_⟩, hend fun k hk ↦ ?_, hask, hopens,
    (hback 1).mpr ⟨hopens, fun k hk ↦ hgreatest k hk.2.1 hk⟩, hstray fun k hk ↦ hnone k hk.2.1 hk, hask'⟩
  · exact Nat.le_of_not_lt fun hlt ↦ hleast k hlt hk
  · have hlt : k < 7 := hk.2.1
    have hgt : 7 < (k : Int) := hk.1
    omega

end Tape
end TapeMachine
