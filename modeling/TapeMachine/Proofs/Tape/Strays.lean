import TapeMachine.Proofs.Tape.Matching
import TapeMachine.Proofs.Tape.Reads

/-!
# Stray brackets

A bracket of the program that has no partner in the program is a *stray* one.  It may still find something
to jump to, since a scan goes on behind the borders of the program.

* Behind the program there are data cells, and any number of them may hold a `]`.  So a scan from a stray `[`
  ends in the data, or nowhere (`scanForward_stray`).
* Before it there is only the storage cell.  A scan that gets there has to arrive outside of all brackets,
  and this is so if and only if the brackets before the stray `]` pair up among themselves
  (`scanBackward_stray`).  None of them can be a stray `[`, since that would be a partner; what may stand in
  the way is another stray `]`.  So the storage cell has a partner in the first stray `]`, if it has one at
  all (`balanced_take_iff`).
-/

set_option autoImplicit false
namespace TapeMachine

open Operator (loopByte againByte)

/-! ## Words -/

/-- The bracket at an index has no partner in the word. -/
def Unpaired (w : List UInt8) (k : Nat) : Prop :=
  ∀ j, ¬ Partners w k j ∧ ¬ Partners w j k

/-- Before an index, there is no `]` without a partner in the word. -/
def NoStrayBefore (w : List UInt8) (k : Nat) : Prop :=
  ∀ i < k, w[i]? = some againByte → ¬ Unpaired w i

/-- A word that pairs up, or does so behind the last `[` that it leaves open. -/
def Settled (w : List UInt8) : Prop :=
  Balanced loopByte againByte w ∨
    ∃ pre u, w = pre ++ loopByte :: u ∧ Balanced loopByte againByte u

theorem Settled.append {w u : List UInt8} (h : Settled w) (hu : Balanced loopByte againByte u) :
    Settled (w ++ u) := by
  rcases h with hw | ⟨pre, v, rfl, hv⟩
  · exact Or.inl (hw.append hu)
  · refine Or.inr ⟨pre, v ++ u, ?_, hv.append hu⟩
    rw [List.append_assoc, List.cons_append]

section Words

variable {w : List UInt8} {k : Nat}

/-- A `]` that has a partner has it before it. -/
theorem exists_partners_of_not_unpaired (hb : w[k]? = some againByte) (hk : ¬ Unpaired w k) :
    ∃ j, Partners w j k := by
  refine Classical.byContradiction fun hnone ↦ hk fun j ↦ ⟨fun hj ↦ ?_, fun hj ↦ hnone ⟨j, hj⟩⟩
  have hbyte := hj.getElem?_left
  rw [hb] at hbyte
  exact loopByte_ne_againByte (Option.some.inj hbyte).symm

/-- Up to two partners, a word ends with a balanced word that begins at the first of them. -/
theorem Partners.exists_take {j : Nat} (h : Partners w j k) :
    ∃ u, w.take (k + 1) = w.take j ++ u ∧ Balanced loopByte againByte u := by
  obtain ⟨pre, u, post, rfl, hu, rfl, rfl⟩ := h
  refine ⟨loopByte :: (u ++ [againByte]), ?_, .nest hu .nil⟩
  have hcut : pre ++ loopByte :: (u ++ againByte :: post)
      = (pre ++ loopByte :: (u ++ [againByte])) ++ post := by simp
  have hlen : pre.length + 1 + u.length + 1 = (pre ++ loopByte :: (u ++ [againByte])).length := by
    simp
    omega
  rw [List.take_left, hcut, hlen, List.take_left]

/-- What stands before an index is settled, if every `]` there has a partner. -/
theorem settled_take (k : Nat) (h : NoStrayBefore w k) : Settled (w.take k) := by
  induction k using Nat.strongRecOn with
  | ind k ih =>
    have hshorter : ∀ j < k, Settled (w.take j) :=
      fun j hj ↦ ih j hj fun i hi ↦ h i (Nat.lt_trans hi hj)
    cases k with
    | zero => exact Or.inl .nil
    | succ k =>
      have hprev := hshorter k (Nat.lt_succ_self k)
      cases hb : w[k]? with
      | none =>
        rw [List.take_add_one, hb, Option.toList_none, List.append_nil]
        exact hprev
      | some b =>
        by_cases hloop : b = loopByte
        · rw [List.take_add_one, hb, hloop]
          exact Or.inr ⟨w.take k, [], rfl, .nil⟩
        · by_cases hagain : b = againByte
          · subst hagain
            -- the word is cut at the partner, where it is shorter still
            obtain ⟨j, hj⟩ := exists_partners_of_not_unpaired hb (h k (Nat.lt_succ_self k) hb)
            obtain ⟨u, htake, hu⟩ := hj.exists_take
            rw [htake]
            exact (hshorter j (Nat.lt_succ_of_lt hj.lt)).append hu
          · rw [List.take_add_one, hb]
            exact hprev.append (.cons hloop hagain .nil)

/-- **What stands before a stray `]` pairs up if it is the first one**, and otherwise it does not. -/
theorem balanced_take_iff (hb : w[k]? = some againByte) (hk : Unpaired w k) :
    Balanced loopByte againByte (w.take k) ↔ NoStrayBefore w k := by
  constructor
  · intro hbalanced i hi hib hstray
    have hin : (w.take k)[i]? = some againByte := by rw [List.getElem?_take_of_lt hi, hib]
    obtain ⟨_, a, b, hp, hplace⟩ := hbalanced.exists_linked hin (Or.inr rfl)
    have hp' : Partners w a b := by
      rw [← w.take_append_drop k]
      exact hp.append _
    rcases hplace with ⟨ha, -⟩ | ⟨hb, -⟩
    · obtain rfl := Nat.succ.inj ha
      exact (hstray b).1 hp'
    · obtain rfl := Nat.succ.inj hb
      exact (hstray a).2 hp'
  · intro hfirst
    rcases settled_take k hfirst with hbalanced | ⟨pre, u, htake, hu⟩
    · exact hbalanced
    · -- a `[` that is left open would be the partner
      obtain ⟨hw, hlen⟩ := eq_take_append_of_getElem? hb
      rw [htake, List.append_assoc, List.cons_append] at hw
      rw [htake, List.length_append, List.length_cons] at hlen
      exact absurd ⟨pre, u, w.drop (k + 1), hw, hu, rfl, by omega⟩ (hk pre.length).2

end Words

/-! ## On a tape -/

namespace Tape

variable {t : Tape} {k : Nat}

/-- The storage cell and a `]` of the program are partners if all that is between them pairs up. -/
theorem partners_storage_iff (hb : t.code[k]? = some againByte) :
    Partners t.bytes.toList 0 (k + 1) ↔
      t.storage = loopByte ∧ Balanced loopByte againByte (t.code.take k) := by
  obtain ⟨hcode, hlen⟩ := eq_take_append_of_getElem? hb
  have hbytes : t.bytes.toList
      = t.storage :: (t.code.take k ++ againByte :: (t.code.drop (k + 1) ++ t.data)) := by
    have happend : t.code ++ t.data = _ := congrArg (· ++ t.data) hcode
    rw [List.append_assoc, List.cons_append] at happend
    rw [t.toList_bytes, happend]
  constructor
  · rintro ⟨pre, u, post, hw, hu, hpre, hplace⟩
    obtain rfl := List.length_eq_zero_iff.mp hpre
    rw [hbytes, List.nil_append] at hw
    obtain ⟨hstorage, hrest⟩ := List.cons.inj hw
    have hu' : t.code.take k = u := (List.append_inj hrest (by omega)).1
    exact ⟨hstorage, hu' ▸ hu⟩
  · rintro ⟨hstorage, hu⟩
    rw [hstorage] at hbytes
    exact ⟨[], _, _, hbytes, hu, rfl, by omega⟩

/-- **A scan from a stray `]` finds the storage cell**, if that holds a `[` and the `]` is the first stray
one, and nothing otherwise. -/
theorem scanBackward_stray (ht : IsWord t.size) (hb : t.code[k]? = some againByte)
    (hk : Unpaired t.code k) :
    (t.storage = loopByte ∧ NoStrayBefore t.code k →
        t.scanBackward ((k + 1 : Nat) : Int) = .found 0) ∧
      (¬ (t.storage = loopByte ∧ NoStrayBefore t.code k) →
        ∃ i, t.scanBackward ((k + 1 : Nat) : Int) = .unmatched i) := by
  have hget := get?_of_code hb
  have hfound : ∀ i, t.scanBackward ((k + 1 : Nat) : Int) = .found i ↔
      Partners t.bytes.toList i (k + 1) := fun i ↦ scanBackward_eq_found_iff ht hget
  have hstorage := partners_storage_iff hb
  rw [balanced_take_iff hb hk] at hstorage
  refine ⟨fun h ↦ (hfound 0).mpr (hstorage.mpr h), fun h ↦ ?_⟩
  cases hscan : t.scanBackward ((k + 1 : Nat) : Int) with
  | unmatched i => exact ⟨i, rfl⟩
  | offTape => exact absurd hscan (scanBackward_on_tape ht (lt_size_of_get? hget)).1
  | found i =>
    have hp := (hfound i).mp hscan
    cases i with
    | zero => exact absurd (hstorage.mp hp) h
    | succ i =>
      have hlt := (List.getElem?_eq_some_iff.mp hb).1
      exact absurd (partners_code_iff.mpr ⟨hp, hlt⟩) (hk i).2

/-- **A scan from a stray `[` ends in the data**: it finds a `]` there, or nothing. -/
theorem scanForward_stray (ht : IsWord t.size) (hb : t.code[k]? = some loopByte)
    (hk : Unpaired t.code k) :
    (∃ j, t.scanForward ((k + 1 : Nat) : Int) = .found j ∧ Partners t.bytes.toList (k + 1) j ∧
        t.dataStart ≤ j ∧ j < t.size ∧ t.get? j = some againByte) ∨
      (∃ i, t.scanForward ((k + 1 : Nat) : Int) = .unmatched i) ∧
        ∀ j, ¬ Partners t.bytes.toList (k + 1) j := by
  have hget := get?_of_code hb
  have hfound : ∀ j, t.scanForward ((k + 1 : Nat) : Int) = .found j ↔
      Partners t.bytes.toList (k + 1) j := fun j ↦ scanForward_eq_found_iff ht hget
  cases hscan : t.scanForward ((k + 1 : Nat) : Int) with
  | unmatched i =>
    refine Or.inr ⟨⟨i, rfl⟩, fun j hp ↦ ?_⟩
    have hj := (hfound j).mpr hp
    rw [hscan] at hj
    cases hj
  | offTape => exact absurd hscan (scanForward_on_tape ht (lt_size_of_get? hget)).1
  | found j =>
    have hp := (hfound j).mp hscan
    have hbyte : t.get? j = some againByte := hp.get?_right
    refine Or.inl ⟨j, rfl, hp, ?_, lt_size_of_get? hbyte, hbyte⟩
    -- a `]` of the program would be a partner in the program
    refine Nat.le_of_not_lt fun hlt ↦ ?_
    have hstart := t.dataStart_eq
    obtain ⟨i, rfl⟩ : ∃ i, j = i + 1 := ⟨j - 1, by have := hp.lt; omega⟩
    exact (hk i).1 (partners_code_iff.mpr ⟨hp, by omega⟩)

end Tape
end TapeMachine
