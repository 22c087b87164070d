import TapeMachine.Proofs.Tape.Matching

/-!
# The jump table holds all that it may

Every entry of the table joins two partners of the program (`JumpTable.linked_of_ofTape`).  Here it is shown
that none are missing, so that the table can be described without the walk that fills it: it holds the
partners of the program (`JumpTable.ofTape_get?_iff`), and these are the brackets from which a scan does not
leave the program (`JumpTable.ofTape_get?_iff_scan`).

An entry could be missing because a bracket was dropped from the stack, or because another entry was written
over it.  The invariant is `Pairing.Full`.  Its first half says what is on the stack: at depth `d`, the bracket
that a walk backward finds when it begins inside `d` brackets at the end of what was read.  Nothing is missing
there, since a closing bracket takes one from the depth of every walk that comes from behind it.  The second
half is about the entries.  No entry is written over another, because a bracket has one partner only.
-/

set_option autoImplicit false
namespace TapeMachine

open Operator (loopByte againByte)

theorem Linked.symm {w : List UInt8} {a b : Nat} (h : Linked w a b) : Linked w b a := by
  obtain ⟨i, j, hp, hab⟩ := h
  exact ⟨i, j, hp, hab.symm.imp And.symm And.symm⟩

theorem Linked.bounds {w : List UInt8} {a b : Nat} (h : Linked w a b) : 1 ≤ a ∧ a < 1 + w.length := by
  obtain ⟨i, rfl, hi⟩ := h.symm.exists_lt
  omega

/-- A byte that is no `]` makes no new partners. -/
theorem Linked.of_append_singleton {w : List UInt8} {a b : Nat} {c : UInt8} (hc : c ≠ againByte)
    (h : Linked (w ++ [c]) a b) : Linked w a b := by
  obtain ⟨i, j, hp, hab⟩ := h
  refine ⟨i, j, hp.of_append ?_, hab⟩
  have hj := hp.lt_length
  rw [List.length_append, List.length_singleton] at hj
  refine Nat.lt_of_le_of_ne (Nat.le_of_lt_succ hj) ?_
  rintro rfl
  have hbyte := hp.getElem?_right
  rw [List.getElem?_append_right (Nat.le_refl _), Nat.sub_self] at hbyte
  exact hc (Option.some.inj hbyte)

namespace JumpTable

section Pair

variable {jt : JumpTable} {i j a : Nat}

theorem get?_pair_right (hj : j < jt.partners.size) : (jt.pair i j).get? j = some i := by
  rw [get?_natCast, pair, Array.getElem?_setIfInBounds]
  simp [hj]

theorem get?_pair_left (hij : i ≠ j) (hi : i < jt.partners.size) : (jt.pair i j).get? i = some j := by
  rw [get?_natCast, pair, Array.getElem?_setIfInBounds, if_neg hij.symm, Array.getElem?_setIfInBounds]
  simp [hi]

theorem get?_pair_of_ne (hi : a ≠ i) (hj : a ≠ j) : (jt.pair i j).get? a = jt.get? a := by
  rw [get?_natCast, pair, Array.getElem?_setIfInBounds, if_neg hj.symm, Array.getElem?_setIfInBounds,
    if_neg hi.symm, ← get?_natCast]

end Pair

/-! ## The walk -/

/-- What the walk holds when the part `w` of the program has been read: all of the brackets that are open,
and all of the links. -/
structure Pairing.Full (size : Nat) (w : List UInt8) (p : Pairing) : Prop where
  size_eq : p.table.partners.size = size
  opened : ∀ depth : Nat, p.opened.items[depth]? =
    (seek againByte loopByte depth w.reverse).map (w.length - ·)
  get?_eq : ∀ a b : Nat, Linked w a b → p.table.get? a = some b

theorem Pairing.full_empty (n : Nat) : Pairing.Full n [] { table := ⟨Array.replicate n none⟩ } where
  size_eq := Array.size_replicate
  opened depth := by cases depth <;> rfl
  get?_eq a b h := by
    have hbounds := h.bounds
    simp at hbounds
    omega

namespace Pairing.Full

variable {size : Nat} {w : List UInt8} {p : Pairing} {b : UInt8}

/-- One more byte is one more byte to walk back over. -/
theorem map_succ (n : Nat) (r : Option Nat) :
    (r.map (· + 1)).map (n + 1 - ·) = r.map (n - ·) := by
  rw [Option.map_map]
  congr 1
  funext k
  exact Nat.add_sub_add_right n 1 k

/-- An opening bracket is put on the stack, and every walk that does not stop at it has one less to leave. -/
theorem push (h : p.Full size w) :
    Pairing.Full size (w ++ [loopByte]) { p with opened := p.opened.push (w.length + 1) } where
  size_eq := h.size_eq
  opened depth := by
    rw [List.reverse_concat, List.length_append, List.length_singleton]
    cases depth with
    | zero =>
      rw [seek_out_zero loopByte_ne_againByte.symm]
      rfl
    | succ depth =>
      rw [seek_out_succ loopByte_ne_againByte.symm, map_succ, ← h.opened depth]
      rfl
  get?_eq a b hab := h.get?_eq a b (hab.of_append_singleton loopByte_ne_againByte)

/-- The last open bracket is the partner of a closing bracket that comes next. -/
theorem exists_partners (h : p.Full size w) {start : Nat} (hs : p.opened.peek? = some start) :
    ∃ i, start = i + 1 ∧ Partners (w ++ [againByte]) i w.length := by
  have htop := h.opened 0
  rw [← List.head?_eq_getElem?, show p.opened.items.head? = some start from hs] at htop
  obtain ⟨k, hk, rfl⟩ := Option.map_eq_some_iff.mp htop.symm
  have hlt := lt_length_of_seek loopByte_ne_againByte.symm hk
  rw [List.length_reverse] at hlt
  refine ⟨w.length - 1 - k, by omega, partners_iff_seek_reverse.mpr ⟨by simp, k, ?_, by omega⟩⟩
  rw [List.take_left]
  exact hk

/-- A closing bracket takes its partner from the stack, and every walk from behind it has one more to leave. -/
theorem close (h : p.Full size w) (hsize : w.length + 1 < size) {start : Nat}
    (hs : p.opened.peek? = some start) :
    Pairing.Full size (w ++ [againByte]) ⟨p.table.pair start (w.length + 1), p.opened.pop⟩ where
  size_eq := by simp [JumpTable.pair, h.size_eq]
  opened depth := by
    rw [List.reverse_concat, List.length_append, List.length_singleton, seek_deeper, map_succ,
      ← h.opened (depth + 1)]
    exact List.getElem?_tail
  get?_eq a b := by
    rintro ⟨i, j, hp, hab⟩
    obtain ⟨start, rfl, hstart⟩ := h.exists_partners hs
    have hlt := hstart.lt
    have hj := hp.lt_length
    rw [List.length_append, List.length_singleton] at hj
    have hroom : w.length + 1 < p.table.partners.size := h.size_eq ▸ hsize
    rcases Nat.lt_or_eq_of_le (Nat.le_of_lt_succ hj) with hold | rfl
    · -- an older link, and neither end of it is an end of the new one
      have hij := hp.lt
      have hi : i ≠ start := by
        rintro rfl
        exact Nat.ne_of_lt hold (hp.right_unique hstart)
      have hj : j ≠ start := by
        rintro rfl
        exact hstart.ne_of_partners hp
      rw [get?_pair_of_ne (by omega) (by omega)]
      exact h.get?_eq a b ⟨i, j, hp.of_append hold, hab⟩
    · obtain rfl := hp.left_unique hstart
      rcases hab with ⟨rfl, rfl⟩ | ⟨rfl, rfl⟩
      · exact get?_pair_left (by omega) (by omega)
      · exact get?_pair_right hroom

/-- A closing bracket without a partner changes nothing: there is no walk back from it, and so none from
behind it. -/
theorem stray (h : p.Full size w) (hs : p.opened.peek? = none) : p.Full size (w ++ [againByte]) where
  size_eq := h.size_eq
  opened depth := by
    have hempty : p.opened.items = [] := List.head?_eq_none_iff.mp hs
    rw [List.reverse_concat, List.length_append, List.length_singleton, seek_deeper, map_succ,
      ← h.opened (depth + 1), hempty]
    rfl
  get?_eq a b := by
    rintro ⟨i, j, hp, hab⟩
    have hj := hp.lt_length
    rw [List.length_append, List.length_singleton] at hj
    rcases Nat.lt_or_eq_of_le (Nat.le_of_lt_succ hj) with hold | rfl
    · exact h.get?_eq a b ⟨i, j, hp.of_append hold, hab⟩
    · obtain ⟨-, k, hk, -⟩ := partners_iff_seek_reverse.mp hp
      have htop := h.opened 0
      rw [List.take_left] at hk
      rw [hk, ← List.head?_eq_getElem?, show p.opened.items.head? = none from hs] at htop
      cases htop

theorem plain (h : p.Full size w) (hd : b ≠ loopByte) (ho : b ≠ againByte) : p.Full size (w ++ [b]) where
  size_eq := h.size_eq
  opened depth := by
    rw [List.reverse_concat, List.length_append, List.length_singleton, seek_plain ho hd, map_succ,
      ← h.opened depth]
  get?_eq a c hac := h.get?_eq a c (hac.of_append_singleton ho)

theorem step {t : Tape} (h : p.Full size w) (hsize : w.length + 1 < size)
    (hb : t.bytes.getD (w.length + 1) 0 = b) : (p.step t (w.length + 1)).Full size (w ++ [b]) := by
  rw [Pairing.step, hb]
  by_cases hd : b = loopByte
  · subst hd
    rw [if_pos rfl]
    exact h.push
  · by_cases ho : b = againByte
    · subst ho
      rw [if_neg hd, if_pos rfl]
      cases hs : p.opened.peek? with
      | some start => exact h.close hsize hs
      | none => exact h.stray hs
    · rw [if_neg hd, if_neg ho]
      exact h.plain hd ho

end Pairing.Full

/-! ## The table -/

/-- **The table holds the partners of the program**, all of them and nothing else. -/
theorem ofTape_get?_iff {t : Tape} {ip : Int} {b : Nat} :
    (ofTape t).get? ip = some b ↔ ∃ a : Nat, ip = a ∧ Linked t.code a b := by
  constructor
  · exact linked_of_ofTape
  · rintro ⟨a, rfl, h⟩
    obtain ⟨p, hp, hfull⟩ := ofTape_invariant (t := t) (P := Pairing.Full t.dataStart)
      (Pairing.full_empty _) fun hsize hb hfull ↦ hfull.step hsize hb
    rw [hp]
    exact hfull.get?_eq a b h

/-- **The table holds the jumps that do not leave the program.**  It leads from one index to another exactly
if both are in the code region and the scan from the bracket at the first finds the second: the forward scan
from a `[`, the backward scan from a `]`.  What is in the data cells and in the storage cell makes no
difference.  The length of the tape is taken to be a word. -/
theorem ofTape_get?_iff_scan {t : Tape} (ht : IsWord t.size) (ip : Int) (j : Nat) :
    (ofTape t).get? ip = some j ↔
      (1 ≤ ip ∧ ip < t.dataStart) ∧ (1 ≤ j ∧ j < t.dataStart) ∧
        ((t.get? ip = some loopByte ∧ t.scanForward ip = .found j) ∨
          (t.get? ip = some againByte ∧ t.scanBackward ip = .found j)) := by
  rw [ofTape_get?_iff]
  have hstart := t.dataStart_eq
  constructor
  · rintro ⟨a, rfl, h⟩
    have ha := h.bounds
    have hj := h.symm.bounds
    exact ⟨by omega, by omega, h.scan ht⟩
  · rintro ⟨hip, hj, hscan⟩
    obtain ⟨i, rfl⟩ : ∃ i : Nat, ip = ((i + 1 : Nat) : Int) := ⟨ip.toNat - 1, by omega⟩
    obtain ⟨k, rfl⟩ : ∃ k, j = k + 1 := ⟨j - 1, by omega⟩
    refine ⟨i + 1, rfl, ?_⟩
    rcases hscan with ⟨hb, hfound⟩ | ⟨hb, hfound⟩
    · have hp := (Tape.scanForward_eq_found_iff ht hb).mp hfound
      exact ⟨i, k, partners_code_iff.mpr ⟨hp, by omega⟩, Or.inl ⟨rfl, rfl⟩⟩
    · have hp := (Tape.scanBackward_eq_found_iff ht hb).mp hfound
      exact ⟨k, i, partners_code_iff.mpr ⟨hp, by omega⟩, Or.inr ⟨rfl, rfl⟩⟩

/-- The program `][[][`, with a `[` in the storage cell and a `]` in the data.  Only the pair in the middle is
in the table, although a scan from the first bracket and a scan from the last find something as well. -/
theorem ofTape_get?_iff_scan_strays :
    let t := ((Tape.ofProgram [0x5d, 0x5b, 0x5b, 0x5d, 0x5b] 2).put 0 0x5b).put 7 0x5d
    IsWord t.size ∧ (ofTape t).get? 3 = some 4 ∧ (ofTape t).get? 4 = some 3 ∧
      t.scanBackward 1 = .found 0 ∧ (ofTape t).get? 1 ≠ some 0 ∧
      t.scanForward 5 = .found 7 ∧ (ofTape t).get? 5 ≠ some 7 := by
  intro t
  have ht : IsWord t.size := by decide
  have hopen : t.get? 3 = some loopByte ∧ t.scanForward 3 = .found 4 := by decide
  have hclose : t.get? 4 = some againByte ∧ t.scanBackward 4 = .found 3 := by decide
  have hentry := ofTape_get?_iff_scan ht
  refine ⟨ht, (hentry 3 4).mpr ⟨by decide, by decide, Or.inl hopen⟩,
    (hentry 4 3).mpr ⟨by decide, by decide, Or.inr hclose⟩, by decide, ?_, by decide, ?_⟩
  · intro h
    obtain ⟨-, hstorage, -⟩ := (hentry 1 0).mp h
    exact absurd hstorage (by decide)
  · intro h
    obtain ⟨-, hdata, -⟩ := (hentry 5 7).mp h
    exact absurd hdata (by decide)

end JumpTable
end TapeMachine
