import TapeMachine.Proofs.Tape.Counting
import TapeMachine.Proofs.Tape.Strays
import TapeMachine.Proofs.Tape.Table

/-!
# The jump table nests, and leaves out as little as it can

The jump table is a partial matching of the brackets of a program.  It is what one expects of brackets: a `[`
is matched with a `]` behind it, and two pairs lie one inside the other or side by side, but never cross.  This
is `JumpTable.Nests`.  It is a statement about the partners of a word.  Since all that is between two partners
pairs up, whatever has a partner there has it there (`Linked.between`).

That the matching is as large as it can be is seen from what it leaves out.  Behind a stray `[` there is no
stray `]` (`Unpaired.not_unpaired_behind`): otherwise the bytes between them would hold no more `]` than `[`,
counted from the one side, and more of them, counted from the other.  So the brackets that are left out read
`]...][...[` (`JumpTable.exists_leftOver_eq`), and none of them could be matched with another.  In particular
there are none exactly if the program is balanced (`balanced_iff_forall_not_unpaired`).
-/

set_option autoImplicit false
namespace TapeMachine

open Operator (loopByte againByte)

/-! ## Links do not cross -/

section Links

variable {w : List UInt8} {a b k m : Nat}

/-- An index is linked with one index only. -/
theorem Linked.unique (h : Linked w k a) (h' : Linked w k b) : a = b := by
  obtain ⟨i, j, hp, ⟨rfl, rfl⟩ | ⟨rfl, rfl⟩⟩ := h
  · obtain ⟨i', j', hp', ⟨hk, rfl⟩ | ⟨hk, rfl⟩⟩ := h'
    · obtain rfl := Nat.succ.inj hk
      rw [hp.right_unique hp']
    · obtain rfl := Nat.succ.inj hk
      exact (hp.ne_of_partners hp').elim
  · obtain ⟨i', j', hp', ⟨hk, rfl⟩ | ⟨hk, rfl⟩⟩ := h'
    · obtain rfl := Nat.succ.inj hk
      exact (hp'.ne_of_partners hp).elim
    · obtain rfl := Nat.succ.inj hk
      rw [hp.left_unique hp']

/-- Of a link from left to right, the ends are the tape indices of two partners. -/
theorem Linked.exists_partners_of_lt (h : Linked w a b) (hab : a < b) :
    ∃ i j, Partners w i j ∧ a = i + 1 ∧ b = j + 1 := by
  obtain ⟨i, j, hp, ⟨ha, hb⟩ | ⟨rfl, rfl⟩⟩ := h
  · exact ⟨i, j, hp, ha, hb⟩
  · have hlt := hp.lt
    omega

/-- Only brackets are linked. -/
theorem Linked.exists_bracket (h : Linked w (k + 1) m) :
    ∃ b, w[k]? = some b ∧ (b = loopByte ∨ b = againByte) := by
  obtain ⟨i, j, hp, ⟨hk, -⟩ | ⟨hk, -⟩⟩ := h
  · obtain rfl := Nat.succ.inj hk
    exact ⟨loopByte, hp.getElem?_left, Or.inl rfl⟩
  · obtain rfl := Nat.succ.inj hk
    exact ⟨againByte, hp.getElem?_right, Or.inr rfl⟩

/-- **What is linked with a bracket between two partners is between them, too.** -/
theorem Linked.between (h : Linked w a b) (hak : a < k) (hkb : k < b) (hkm : Linked w k m) :
    a < m ∧ m < b := by
  obtain ⟨i, j, ⟨pre, u, post, rfl, hu, rfl, rfl⟩, rfl, rfl⟩ :=
    h.exists_partners_of_lt (Nat.lt_trans hak hkb)
  have hlen : (pre ++ [loopByte]).length = pre.length + 1 := by simp
  obtain ⟨n, rfl⟩ : ∃ n, k = (pre ++ [loopByte]).length + n + 1 := ⟨k - pre.length - 2, by omega⟩
  have hcut : pre ++ loopByte :: (u ++ againByte :: post)
      = (pre ++ [loopByte]) ++ (u ++ againByte :: post) := by simp
  have hn : n < u.length := by omega
  rw [hcut] at hkm
  -- the bracket is in the balanced word between the two, and has its partner there
  obtain ⟨c, hc, hbracket⟩ := hkm.exists_bracket
  rw [List.getElem?_append_right (Nat.le_add_right _ _), Nat.add_sub_cancel_left,
    List.getElem?_append_left hn] at hc
  obtain ⟨d, hd⟩ := hu.exists_linked hc hbracket
  obtain rfl := hkm.unique ((hd.append (againByte :: post)).prepend (pre ++ [loopByte]))
  have hbounds := hd.symm.bounds
  omega

end Links

/-! ## Stray brackets do not face each other -/

section Strays

variable {w : List UInt8} {i k : Nat}

/-- Where a walk does not lead out, no part of its word does. -/
theorem count_take_le_of_seek_eq_none {deeper out : UInt8} (hne : deeper ≠ out) {depth : Nat}
    (h : seek deeper out depth w = none) (n : Nat) :
    (w.take n).count out ≤ (w.take n).count deeper + depth := by
  have hnone := firstAt_seek hne w depth
  rw [h] at hnone
  induction n with
  | zero => simp
  | succ n ih =>
    have hnot : ¬ LeadsOut deeper out depth w (n + 1) := hnone (n + 1)
    -- one more byte counts at most once, so the first time that there were too many would be a way out
    have hone : w[n]?.toList.count out ≤ 1 :=
      Nat.le_trans List.count_le_length Option.length_toList_le
    rw [LeadsOut, List.take_add_one, List.count_append, List.count_append] at hnot
    rw [List.take_add_one, List.count_append, List.count_append]
    omega

theorem Unpaired.seek_eq_none (h : Unpaired w i) (hb : w[i]? = some loopByte) :
    seek loopByte againByte 0 (w.drop (i + 1)) = none := by
  cases hs : seek loopByte againByte 0 (w.drop (i + 1)) with
  | none => rfl
  | some n => exact absurd (partners_of_seek hb hs) (h _).1

theorem Unpaired.seek_reverse_eq_none (h : Unpaired w k) (hb : w[k]? = some againByte) :
    seek againByte loopByte 0 (w.take k).reverse = none := by
  cases hs : seek againByte loopByte 0 (w.take k).reverse with
  | none => rfl
  | some n => exact absurd (partners_of_seek_reverse hb hs) (h _).2

/-- **Behind a stray `[` there is no stray `]`.** -/
theorem Unpaired.not_unpaired_behind (hi : Unpaired w i) (hib : w[i]? = some loopByte) (hik : i < k)
    (hkb : w[k]? = some againByte) : ¬ Unpaired w k := by
  intro hk
  obtain ⟨hklt, -⟩ := List.getElem?_eq_some_iff.mp hkb
  obtain ⟨hilt, hloop⟩ := List.getElem?_eq_some_iff.mp hib
  have hlen : (w.take k).length = k := List.length_take_of_le (Nat.le_of_lt hklt)
  have hforward := count_take_le_of_seek_eq_none loopByte_ne_againByte (hi.seek_eq_none hib)
    (k - (i + 1))
  have hbackward := count_take_le_of_seek_eq_none loopByte_ne_againByte.symm
    (hk.seek_reverse_eq_none hkb) (k - i)
  -- the second count is over the same bytes and the `[` in front of them
  have hcut : (w.take k).drop i = loopByte :: (w.drop (i + 1)).take (k - (i + 1)) := by
    rw [List.drop_take, List.drop_eq_getElem_cons hilt, hloop,
      show k - i = k - (i + 1) + 1 by omega, List.take_succ_cons]
  rw [List.take_reverse, hlen, show k - (k - i) = i by omega, hcut, List.count_reverse,
    List.count_reverse, List.count_cons_self, List.count_cons_of_ne loopByte_ne_againByte] at hbackward
  omega

/-- **A word is balanced if no bracket of it is a stray one**, and only then. -/
theorem balanced_iff_forall_not_unpaired : Balanced loopByte againByte w ↔
    ∀ (k : Nat) (b : UInt8), w[k]? = some b → b = loopByte ∨ b = againByte → ¬ Unpaired w k := by
  constructor
  · intro hw k b hk hb hstray
    obtain ⟨-, i, j, hp, ⟨hkey, -⟩ | ⟨hkey, -⟩⟩ := hw.exists_linked hk hb
    · obtain rfl := Nat.succ.inj hkey
      exact (hstray j).1 hp
    · obtain rfl := Nat.succ.inj hkey
      exact (hstray i).2 hp
  · intro h
    have hsettled := settled_take w.length fun i _ hi ↦ h i againByte hi (Or.inr rfl)
    rw [List.take_length] at hsettled
    rcases hsettled with hw | ⟨pre, u, hw, hu⟩
    · exact hw
    · -- the last `[` that is left open would be a stray one
      have hopen : w[pre.length]? = some loopByte := by
        rw [hw]
        simp
      refine absurd ?_ (h pre.length loopByte hopen (Or.inl rfl))
      intro j
      refine ⟨fun hp ↦ ?_, fun hp ↦ ?_⟩
      · obtain ⟨-, n, hn, -⟩ := partners_iff_seek.mp hp
        have hdrop : w.drop (pre.length + 1) = u ++ [] := by
          rw [hw]
          simp
        rw [hdrop, hu.seek_append loopByte_ne_againByte] at hn
        cases hn
      · have hbyte := hp.getElem?_right
        rw [hopen] at hbyte
        exact loopByte_ne_againByte (Option.some.inj hbyte)

/-- Two bytes in a row in which the second never stands before the first. -/
theorem exists_eq_replicate_append {first second : UInt8} {l : List UInt8}
    (hmem : ∀ b ∈ l, b = first ∨ b = second)
    (horder : l.Pairwise fun b c ↦ b = second → c = second) :
    ∃ m n, l = List.replicate m first ++ List.replicate n second := by
  induction l with
  | nil => exact ⟨0, 0, rfl⟩
  | cons b l ih =>
    obtain ⟨hhead, htail⟩ := List.pairwise_cons.mp horder
    rcases hmem b List.mem_cons_self with rfl | rfl
    · obtain ⟨m, n, rfl⟩ := ih (fun c hc ↦ hmem c (List.mem_cons_of_mem b hc)) htail
      exact ⟨m + 1, n, rfl⟩
    · have hrest : l = List.replicate l.length b := List.eq_replicate_of_mem fun c hc ↦ hhead c hc rfl
      exact ⟨0, l.length + 1, congrArg (b :: ·) hrest⟩

end Strays

namespace JumpTable

/-! ## What is in the table -/

/-- The entries of a table pair brackets of a program as brackets are paired. -/
structure Nests (jt : JumpTable) (t : Tape) : Prop where
  /-- Only the program has entries. -/
  inCode : ∀ {ip : Int} {j : Nat}, jt.get? ip = some j → Tape.codeStart ≤ ip ∧ ip < t.dataStart
  /-- Entries come in pairs. -/
  symm : ∀ {i j : Nat}, jt.get? i = some j → jt.get? j = some i
  ne : ∀ {i j : Nat}, jt.get? i = some j → i ≠ j
  /-- A `[` is paired with a `]` that stands behind it. -/
  brackets : ∀ {i j : Nat}, jt.get? i = some j → i < j →
    t.get? i = some loopByte ∧ t.get? j = some againByte
  /-- Two pairs do not cross. -/
  laminar : ∀ {i j k l : Nat}, jt.get? i = some j → jt.get? k = some l → ¬ (i < k ∧ k < j ∧ j < l)

theorem ofTape_get?_natCast_iff {t : Tape} {a b : Nat} :
    (ofTape t).get? a = some b ↔ Linked t.code a b := by
  rw [ofTape_get?_iff]
  constructor
  · rintro ⟨a', ha, h⟩
    obtain rfl := Int.ofNat.inj ha
    exact h
  · intro h
    exact ⟨a, rfl, h⟩

/-- **The table nests**, whatever the program. -/
theorem nests_ofTape (t : Tape) : (ofTape t).Nests t where
  inCode {ip j} h := by
    obtain ⟨a, rfl, hlink⟩ := ofTape_get?_iff.mp h
    have hbounds := hlink.bounds
    have hstart := t.dataStart_eq
    rw [Tape.codeStart]
    omega
  symm h := ofTape_get?_natCast_iff.mpr (ofTape_get?_natCast_iff.mp h).symm
  ne {i j} h := by
    obtain ⟨i', j', hp, hij⟩ := ofTape_get?_natCast_iff.mp h
    have hlt := hp.lt
    omega
  brackets h hij := by
    obtain ⟨i', j', hp, rfl, rfl⟩ := (ofTape_get?_natCast_iff.mp h).exists_partners_of_lt hij
    exact ⟨hp.of_code.get?_left, hp.of_code.get?_right⟩
  laminar {i j k l} h h' := by
    rintro ⟨hik, hkj, hjl⟩
    have hbetween := (ofTape_get?_natCast_iff.mp h).between hik hkj (ofTape_get?_natCast_iff.mp h')
    omega

/-! ## What is left out -/

/-- The brackets of the program that have no entry, in order: the program without all other bytes, and
without the brackets that have one. -/
def leftOver (jt : JumpTable) (t : Tape) : List UInt8 :=
  ((t.code.zipIdx Tape.codeStart).filter fun p ↦
    (p.1 = loopByte ∨ p.1 = againByte) ∧ jt.get? p.2 = none).map Prod.fst

theorem ofTape_get?_eq_none_iff {t : Tape} {k : Nat} :
    (ofTape t).get? ((k + 1 : Nat) : Int) = none ↔ Unpaired t.code k := by
  rw [Option.eq_none_iff_forall_ne_some]
  constructor
  · intro h j
    have hlink := fun m ↦ mt ofTape_get?_natCast_iff.mpr (h m)
    exact ⟨fun hp ↦ hlink (j + 1) ⟨k, j, hp, Or.inl ⟨rfl, rfl⟩⟩,
      fun hp ↦ hlink (j + 1) ⟨j, k, hp, Or.inr ⟨rfl, rfl⟩⟩⟩
  · intro h m hm
    obtain ⟨i, j, hp, ⟨hk, -⟩ | ⟨hk, -⟩⟩ := ofTape_get?_natCast_iff.mp hm
    · obtain rfl := Nat.succ.inj hk
      exact (h j).1 hp
    · obtain rfl := Nat.succ.inj hk
      exact (h i).2 hp

/-- **What the table leaves out is first `]` and then `[`.** -/
theorem exists_leftOver_eq (t : Tape) : ∃ closers openers, (ofTape t).leftOver t =
    List.replicate closers againByte ++ List.replicate openers loopByte := by
  have hmem : ∀ p ∈ (t.code.zipIdx Tape.codeStart).filter (fun p ↦
      (p.1 = loopByte ∨ p.1 = againByte) ∧ (ofTape t).get? p.2 = none),
      (p.1 = loopByte ∨ p.1 = againByte) ∧
        ∃ k, p.2 = k + 1 ∧ t.code[k]? = some p.1 ∧ Unpaired t.code k := by
    rintro ⟨b, i⟩ hp
    rw [List.mem_filter, decide_eq_true_iff] at hp
    obtain ⟨hzip, hb, hnone⟩ := hp
    obtain ⟨hi, -, -⟩ := List.mem_zipIdx hzip
    obtain ⟨k, rfl⟩ : ∃ k, i = k + 1 := ⟨i - 1, (Nat.sub_add_cancel hi).symm⟩
    refine ⟨hb, k, rfl, ?_, ofTape_get?_eq_none_iff.mp hnone⟩
    simpa [Tape.codeStart, List.mk_mem_zipIdx_iff_le_and_getElem?_sub] using hzip
  have horder : ((t.code.zipIdx Tape.codeStart).filter fun p ↦
      (p.1 = loopByte ∨ p.1 = againByte) ∧ (ofTape t).get? p.2 = none).Pairwise
        fun p q ↦ p.2 < q.2 := by
    refine List.Pairwise.filter _ ?_
    rw [← List.pairwise_map (f := Prod.snd) (R := (· < ·)), List.zipIdx_map_snd]
    exact List.pairwise_lt_range'
  rw [leftOver]
  refine exists_eq_replicate_append ?_ (List.pairwise_map.mpr (horder.imp_of_mem ?_))
  · intro b hb
    obtain ⟨p, hp, rfl⟩ := List.mem_map.mp hb
    exact (hmem p hp).1.symm
  · rintro p q hp hq hlt hloop
    obtain ⟨-, i, hi, hib, hstray⟩ := hmem p hp
    obtain ⟨hbracket, k, hk, hkb, hstray'⟩ := hmem q hq
    rw [hloop] at hib
    refine hbracket.resolve_right fun hagain ↦ ?_
    rw [hagain] at hkb
    exact hstray.not_unpaired_behind hib (by omega) hkb hstray'

/-- Of the brackets of `][[][` the pair in the middle is in the table. -/
example : (ofTape (.ofProgram [0x5d, 0x5b, 0x5b, 0x5d, 0x5b] 1)).leftOver
    (.ofProgram [0x5d, 0x5b, 0x5b, 0x5d, 0x5b] 1) = [0x5d, 0x5b, 0x5b] := by
  decide

/-- **The jump table is a largest matching that nests.**  Its entries come in pairs of a `[` and a `]` behind
it, and no two pairs cross.  The brackets of the program that it leaves out, without all other bytes, are
some `]` and then some `[`.  In particular, every bracket of the program has an entry exactly if the program
is balanced. -/
theorem ofTape_nests (t : Tape) :
    (ofTape t).Nests t ∧
      (∃ closers openers, (ofTape t).leftOver t =
        List.replicate closers againByte ++ List.replicate openers loopByte) ∧
      ((∀ (k : Nat) (b : UInt8), t.code[k]? = some b → b = loopByte ∨ b = againByte →
        ((ofTape t).get? ((k + 1 : Nat) : Int)).isSome) ↔ Balanced loopByte againByte t.code) := by
  refine ⟨nests_ofTape t, exists_leftOver_eq t, ?_⟩
  rw [balanced_iff_forall_not_unpaired]
  simp only [← ofTape_get?_eq_none_iff, Option.isSome_iff_ne_none, ne_eq]

end JumpTable
end TapeMachine
