import TapeMachine.Proofs.Tape.Brackets
import TapeMachine.Tape.JumpTable

/-!
# What the jump table holds

The table is filled by walking over the program once with a stack of the brackets that are still open.
Matching by a stack and matching by counting are two different algorithms; `linked_of_ofTape` says that
the first never contradicts the second.  Every entry of the table joins two `Partners` of the program, so
a scan from either end of it, on any tape with that program, leads to the other.

The invariant of the walk is `Pairing.Sound`.  Its first half, `Opened`, is about the stack: behind each
open bracket the program read so far goes on with a balanced word, up to the next open bracket or to the
end.  The second half is the statement about the entries, for the part of the program read so far.
-/

set_option autoImplicit false
namespace TapeMachine

open Operator (loopByte againByte)

/-! ## Links -/

/-- The tape indices `a` and `b` are those of two partners of the program, in either order. -/
def Linked (code : List UInt8) (a b : Nat) : Prop :=
  ∃ i j, Partners code i j ∧ ((a = i + 1 ∧ b = j + 1) ∨ (a = j + 1 ∧ b = i + 1))

theorem Partners.append {w : List UInt8} {i j : Nat} (h : Partners w i j) (x : List UInt8) :
    Partners (w ++ x) i j := by
  obtain ⟨pre, u, post, rfl, hu, hi, hj⟩ := h
  exact ⟨pre, u, post ++ x, by simp, hu, hi, hj⟩

theorem Linked.append {w : List UInt8} {a b : Nat} (h : Linked w a b) (x : List UInt8) :
    Linked (w ++ x) a b := by
  obtain ⟨i, j, hp, hab⟩ := h
  exact ⟨i, j, hp.append x, hab⟩

/-! ## The brackets that are still open -/

/-- The tape indices of brackets that a stretch of program opens and does not close, the last one first.
Brackets before the first of them are not looked at. -/
inductive Opened : List UInt8 → List Nat → Prop
  | nil (w : List UInt8) : Opened w []
  | cons {v u : List UInt8} {open_ : List Nat} (hv : Opened v open_)
      (hu : Balanced loopByte againByte u) :
      Opened (v ++ loopByte :: u) ((v.length + 1) :: open_)

/-- A balanced word opens nothing that it does not close. -/
theorem Opened.append {w : List UInt8} {open_ : List Nat} (h : Opened w open_) {u : List UInt8}
    (hu : Balanced loopByte againByte u) : Opened (w ++ u) open_ := by
  cases h with
  | nil => exact .nil _
  | cons hv hu' =>
    rw [List.append_assoc, List.cons_append]
    exact hv.cons (hu'.append hu)

namespace JumpTable

theorem get?_natCast (jt : JumpTable) (a : Nat) : jt.get? a = jt.partners[a]?.getD none := by
  rw [get?, if_neg (by omega), Array.getD_eq_getD_getElem?]
  rfl

/-- Pairing two indices adds no other entries. -/
theorem get?_pair {jt : JumpTable} {i j a b : Nat} (h : (jt.pair i j).get? a = some b) :
    jt.get? a = some b ∨ (a = i ∧ b = j) ∨ (a = j ∧ b = i) := by
  rw [get?_natCast, pair, Array.getElem?_setIfInBounds, Array.getElem?_setIfInBounds] at h
  by_cases hj : j = a
  · rw [if_pos hj] at h
    split at h
    · cases h; exact Or.inr (Or.inr ⟨hj.symm, rfl⟩)
    · cases h
  · rw [if_neg hj] at h
    by_cases hi : i = a
    · rw [if_pos hi] at h
      split at h
      · cases h; exact Or.inr (Or.inl ⟨hi.symm, rfl⟩)
      · cases h
    · rw [if_neg hi, ← get?_natCast] at h
      exact Or.inl h

/-! ## The walk -/

/-- What holds when the part `w` of the program has been read. -/
structure Pairing.Sound (w : List UInt8) (p : Pairing) : Prop where
  opened : Opened w p.opened.items
  linked : ∀ a b : Nat, p.table.get? a = some b → Linked w a b

theorem Pairing.sound_empty (n : Nat) : Pairing.Sound [] { table := ⟨Array.replicate n none⟩ } := by
  refine ⟨.nil [], fun a b h ↦ ?_⟩
  rw [get?_natCast, Array.getElem?_replicate] at h
  split at h <;> cases h

/-- A closing bracket is paired with the last open one, and the word between them is balanced. -/
theorem Pairing.Sound.close {w : List UInt8} {p : Pairing} (h : p.Sound w) {start : Nat}
    (hs : p.opened.peek? = some start) :
    Pairing.Sound (w ++ [againByte]) ⟨p.table.pair start (w.length + 1), p.opened.pop⟩ := by
  obtain ⟨table, ⟨items⟩⟩ := p
  obtain ⟨ho, hl⟩ := h
  cases ho with
  | nil => cases hs
  | @cons v u rest hv hu =>
    cases hs
    have hw : v ++ loopByte :: u ++ [againByte] = v ++ loopByte :: (u ++ [againByte]) := by simp
    have hp : Partners (v ++ loopByte :: u ++ [againByte]) v.length (v ++ loopByte :: u).length :=
      ⟨v, u, [], hw, hu, rfl, by simp only [List.length_append, List.length_cons]; omega⟩
    refine ⟨?_, fun a b hab ↦ ?_⟩
    · rw [hw]
      exact hv.append (hu.nest .nil)
    · rcases get?_pair hab with hold | hnew
      · exact (hl a b hold).append _
      · exact ⟨_, _, hp, hnew⟩

theorem Pairing.Sound.step {t : Tape} {w : List UInt8} {p : Pairing} (h : p.Sound w) {b : UInt8}
    (hb : t.bytes.getD (w.length + 1) 0 = b) :
    (Pairing.step t p (w.length + 1)).Sound (w ++ [b]) := by
  rw [Pairing.step, hb]
  by_cases hd : b = loopByte
  · subst hd
    rw [if_pos rfl]
    exact ⟨h.opened.cons .nil, fun a b hab ↦ (h.linked a b hab).append _⟩
  · by_cases ho : b = againByte
    · subst ho
      rw [if_neg hd, if_pos rfl]
      cases hs : p.opened.peek? with
      | some start => exact h.close hs
      | none =>
        obtain ⟨table, ⟨items⟩⟩ := p
        cases items with
        | nil => exact ⟨.nil _, fun a b hab ↦ (h.linked a b hab).append _⟩
        | cons => cases hs
    · rw [if_neg hd, if_neg ho]
      exact ⟨h.opened.append (Balanced.nil.cons hd ho), fun a b hab ↦ (h.linked a b hab).append _⟩

/-- What holds before the walk, and is preserved by each of its steps, holds for every part of the program
that has been read. -/
theorem Pairing.foldl_invariant {t : Tape} {P : List UInt8 → Pairing → Prop}
    (hstart : P [] { table := ⟨Array.replicate t.dataStart none⟩ })
    (hstep : ∀ {w : List UInt8} {p : Pairing} {b : UInt8}, w.length + 1 < t.dataStart →
      t.bytes.getD (w.length + 1) 0 = b → P w p → P (w ++ [b]) (p.step t (w.length + 1)))
    (n : Nat) (hn : n ≤ t.code.length) :
    P (t.code.take n)
      ((List.range' 1 n).foldl (Pairing.step t) { table := ⟨Array.replicate t.dataStart none⟩ }) := by
  induction n with
  | zero => exact hstart
  | succ n ih =>
    have hlen : (t.code.take n).length = n := List.length_take_of_le (by omega)
    have hlt : 1 + n < t.dataStart := by rw [t.dataStart_eq]; omega
    have hb : t.bytes.getD ((t.code.take n).length + 1) 0 = t.code[n] := by
      have h := t.getElem?_code n
      rw [List.getElem?_eq_getElem hn, if_pos hlt] at h
      rw [hlen, Nat.add_comm, Array.getD_eq_getD_getElem?, ← h, Option.getD_some]
    have hnext := hstep (by omega) hb (ih (by omega))
    rw [hlen, Nat.add_comm n 1] at hnext
    rw [List.range'_1_concat, List.foldl_append, List.take_succ_eq_append_getElem hn]
    exact hnext

/-- The table is what the walk has made when all of the program has been read. -/
theorem ofTape_invariant {t : Tape} {P : List UInt8 → Pairing → Prop}
    (hstart : P [] { table := ⟨Array.replicate t.dataStart none⟩ })
    (hstep : ∀ {w : List UInt8} {p : Pairing} {b : UInt8}, w.length + 1 < t.dataStart →
      t.bytes.getD (w.length + 1) 0 = b → P w p → P (w ++ [b]) (p.step t (w.length + 1))) :
    ∃ p, ofTape t = p.table ∧ P t.code p := by
  have h := Pairing.foldl_invariant hstart hstep t.code.length (Nat.le_refl _)
  rw [List.take_length, t.length_code] at h
  exact ⟨_, rfl, h⟩

/-- **Every entry of the table joins two partners of the program.** -/
theorem linked_of_ofTape {t : Tape} {ip : Int} {b : Nat} (h : (ofTape t).get? ip = some b) :
    ∃ a : Nat, ip = a ∧ Linked t.code a b := by
  by_cases hip : ip < 0
  · rw [get?, if_pos hip] at h
    cases h
  · obtain ⟨a, rfl⟩ := Int.eq_ofNat_of_zero_le (Int.not_lt.1 hip)
    obtain ⟨p, hp, hs⟩ := ofTape_invariant (t := t) (P := Pairing.Sound) (Pairing.sound_empty _)
      fun _ hb hs ↦ hs.step hb
    exact ⟨a, rfl, hs.linked a b (hp ▸ h)⟩

end JumpTable

/-! ## Scans from a linked bracket -/

/-- From the opening end of a link the forward scan leads to the other end, and from the closing end the
backward scan. -/
theorem Linked.scan {t : Tape} (ht : IsWord t.size) {a b : Nat} (h : Linked t.code a b) :
    (t.get? a = some loopByte ∧ t.scanForward a = .found b) ∨
      (t.get? a = some againByte ∧ t.scanBackward a = .found b) := by
  obtain ⟨i, j, hp, hab⟩ := h
  have hp' := hp.of_code
  rcases hab with ⟨rfl, rfl⟩ | ⟨rfl, rfl⟩
  · exact Or.inl ⟨hp'.get?_left, hp'.scanForward ht⟩
  · exact Or.inr ⟨hp'.get?_right, hp'.scanBackward ht⟩

/-! ## Balanced programs -/

theorem Linked.prepend {w : List UInt8} {a b : Nat} (h : Linked w a b) (x : List UInt8) :
    Linked (x ++ w) (x.length + a) (x.length + b) := by
  obtain ⟨i, j, ⟨pre, u, post, rfl, hu, rfl, rfl⟩, hab⟩ := h
  refine ⟨_, _, ⟨x ++ pre, u, post, by simp, hu, rfl, rfl⟩, ?_⟩
  rw [List.length_append]
  omega

theorem Linked.exists_lt {w : List UInt8} {a b : Nat} (h : Linked w a b) :
    ∃ j, b = j + 1 ∧ j < w.length := by
  obtain ⟨i, j, hp, ⟨-, rfl⟩ | ⟨-, rfl⟩⟩ := h
  · exact ⟨j, rfl, (List.getElem?_eq_some_iff.mp hp.getElem?_right).1⟩
  · exact ⟨i, rfl, (List.getElem?_eq_some_iff.mp hp.getElem?_left).1⟩

/-- **Every bracket of a balanced program has its partner there.** -/
theorem Balanced.exists_linked {w : List UInt8} (hw : Balanced loopByte againByte w) {k : Nat}
    {b : UInt8} (hk : w[k]? = some b) (hb : b = loopByte ∨ b = againByte) :
    ∃ j, Linked w (k + 1) j := by
  induction hw generalizing k with
  | nil => cases hk
  | @cons c w hd ho _ ih =>
    cases k with
    | zero =>
      obtain rfl := Option.some.inj hk
      exact absurd hb (not_or.mpr ⟨hd, ho⟩)
    | succ k =>
      obtain ⟨j, hj⟩ := ih (List.getElem?_cons_succ ▸ hk)
      refine ⟨[c].length + j, ?_⟩
      rw [Nat.add_comm (k + 1) 1]
      exact hj.prepend [c]
  | @nest u w hu _ ihu ihw =>
    have houter : Partners (loopByte :: (u ++ againByte :: w)) 0 (0 + 1 + u.length) :=
      ⟨[], u, w, rfl, hu, rfl, rfl⟩
    cases k with
    | zero => exact ⟨_, _, _, houter, Or.inl ⟨rfl, rfl⟩⟩
    | succ k =>
      rw [List.getElem?_cons_succ] at hk
      -- the bracket is inside, or it closes the first one, or it comes behind
      rcases Nat.lt_trichotomy k u.length with hlt | rfl | hgt
      · rw [List.getElem?_append_left hlt] at hk
        obtain ⟨j, hj⟩ := ihu hk
        refine ⟨[loopByte].length + j, ?_⟩
        rw [Nat.add_comm (k + 1) 1]
        exact (hj.append (againByte :: w)).prepend [loopByte]
      · exact ⟨_, _, _, houter, Or.inr ⟨by omega, rfl⟩⟩
      · obtain ⟨n, rfl⟩ : ∃ n, k = u.length + (n + 1) := ⟨k - u.length - 1, by omega⟩
        rw [List.getElem?_append_right (Nat.le_add_right _ _), Nat.add_sub_cancel_left,
          List.getElem?_cons_succ] at hk
        obtain ⟨j, hj⟩ := ihw hk
        have hcut : loopByte :: (u ++ againByte :: w) = (loopByte :: u ++ [againByte]) ++ w := by simp
        have hplace : u.length + (n + 1) + 1 + 1
            = (loopByte :: u ++ [againByte]).length + (n + 1) := by
          rw [List.length_append, List.length_cons, List.length_singleton]
          omega
        rw [hcut, hplace]
        exact ⟨_, hj.prepend _⟩

end TapeMachine
