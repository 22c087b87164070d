import TapeMachine.Proofs.Tape.Brackets

/-!
# Taking bytes out of a program

Bytes that do nothing can be taken out of a program.  Every index behind them changes, and how much it
changes depends on how many of them came before; so the two tapes, the one with these bytes and the one
without, are best not compared index by index.

Instead both are read off one word of `Mark`s, bytes that know whether they are kept.  The full tape is all
of the word (`allBytes`) and the short tape is what is kept of it (`keptBytes`).  A place on both is a way to
cut the word in two: a prefix `u` stands for index `u.length` on the one and for `(keptBytes u).length` on
the other.

Brackets are always kept.  A walk over the short tape therefore ends where the walk over the full tape
does, at the same cut (`seek_kept`), and the same goes for the scans (`scan_kept`).
-/

set_option autoImplicit false
namespace TapeMachine

open Operator (loopByte againByte decode)

/-- A byte of a tape, and whether it stays when bytes are taken out. -/
structure Mark where
  byte : UInt8
  kept : Bool

/-- All bytes of a word. -/
def allBytes (w : List Mark) : List UInt8 :=
  w.map Mark.byte

/-- The bytes of a word that stay. -/
def keptBytes (w : List Mark) : List UInt8 :=
  allBytes (w.filter Mark.kept)

section Words

theorem allBytes_cons (x : Mark) (w : List Mark) : allBytes (x :: w) = x.byte :: allBytes w :=
  rfl

theorem allBytes_append (u w : List Mark) : allBytes (u ++ w) = allBytes u ++ allBytes w :=
  List.map_append

theorem keptBytes_append (u w : List Mark) : keptBytes (u ++ w) = keptBytes u ++ keptBytes w := by
  rw [keptBytes, List.filter_append, allBytes_append]
  rfl

theorem keptBytes_cons_of_kept {x : Mark} (hx : x.kept = true) (w : List Mark) :
    keptBytes (x :: w) = x.byte :: keptBytes w := by
  rw [keptBytes, List.filter_cons_of_pos hx]
  rfl

theorem keptBytes_cons_of_not_kept {x : Mark} (hx : x.kept = false) (w : List Mark) :
    keptBytes (x :: w) = keptBytes w := by
  rw [keptBytes, List.filter_cons_of_neg (by rw [hx]; exact Bool.false_ne_true)]
  rfl

theorem allBytes_reverse (w : List Mark) : allBytes w.reverse = (allBytes w).reverse :=
  List.map_reverse

theorem keptBytes_reverse (w : List Mark) : keptBytes w.reverse = (keptBytes w).reverse := by
  rw [keptBytes, List.filter_reverse, allBytes_reverse]
  rfl

theorem length_allBytes (w : List Mark) : (allBytes w).length = w.length :=
  List.length_map _

/-- How many bytes stay does not depend on what they are. -/
theorem length_keptBytes (w : List Mark) : (keptBytes w).length = (w.map Mark.kept).count true := by
  rw [keptBytes, length_allBytes, ← List.countP_eq_length_filter, List.count, List.countP_map]
  congr 1
  funext x
  simp

/-- Where two walks end, one over all of a word and one over what is kept of it: at the same cut, in front
of a byte that is kept, or not at all. -/
inductive SameCut (w : List Mark) : Option Nat → Option Nat → Prop
  | never : SameCut w none none
  | before {u v : List Mark} {x : Mark} (hw : w = u ++ x :: v) (hx : x.kept = true) :
      SameCut w (some u.length) (some (keptBytes u).length)

/-- A byte in front moves a cut by one, and on the short tape it does so if it is kept. -/
theorem SameCut.cons {w : List Mark} {r r' : Option Nat} (h : SameCut w r r') (y : Mark) :
    SameCut (y :: w) (r.map (· + 1)) (r'.map (· + (keptBytes [y]).length)) := by
  cases h with
  | never => exact .never
  | @before u v x hw hx =>
    have hlen : (keptBytes (y :: u)).length = (keptBytes u).length + (keptBytes [y]).length := by
      rw [← List.singleton_append (l := u), keptBytes_append, List.length_append, Nat.add_comm]
    have hcut : SameCut (y :: w) _ (some (keptBytes (y :: u)).length) :=
      .before (congrArg (y :: ·) hw) hx
    rw [hlen] at hcut
    exact hcut

/-- **A walk over what is kept ends at the same cut.** -/
theorem seek_kept {deeper out : UInt8} (hne : deeper ≠ out) {w : List Mark}
    (hw : ∀ x ∈ w, x.kept = false → x.byte ≠ deeper ∧ x.byte ≠ out) : ∀ depth : Nat,
    SameCut w (seek deeper out depth (allBytes w)) (seek deeper out depth (keptBytes w)) := by
  induction w with
  | nil => exact fun depth ↦ .never
  | cons y w ih =>
    have hrest := ih fun x hx ↦ hw x (List.mem_cons_of_mem y hx)
    intro depth
    rw [allBytes_cons]
    cases hy : y.kept with
    | false =>
      obtain ⟨hd, ho⟩ := hw y List.mem_cons_self hy
      have hzero : (keptBytes [y]).length = 0 := by rw [keptBytes_cons_of_not_kept hy]; rfl
      have hcut := (hrest depth).cons y
      rw [hzero] at hcut
      rw [keptBytes_cons_of_not_kept hy, seek_plain hd ho]
      simpa using hcut
    | true =>
      have hone : (keptBytes [y]).length = 1 := by rw [keptBytes_cons_of_kept hy]; rfl
      rw [keptBytes_cons_of_kept hy]
      by_cases hd : y.byte = deeper
      · have hcut := (hrest (depth + 1)).cons y
        rw [hone] at hcut
        rw [hd, seek_deeper, seek_deeper]
        exact hcut
      · by_cases ho : y.byte = out
        · cases depth with
          | zero =>
            rw [ho, seek_out_zero hne, seek_out_zero hne]
            exact .before (u := []) rfl hy
          | succ depth =>
            have hcut := (hrest depth).cons y
            rw [hone] at hcut
            rw [ho, seek_out_succ hne, seek_out_succ hne]
            exact hcut
        · have hcut := (hrest depth).cons y
          rw [hone] at hcut
          rw [seek_plain hd ho, seek_plain hd ho]
          exact hcut

end Words

/-! ## Scans -/

/-- No bracket is taken out. -/
def KeepsBrackets (w : List Mark) : Prop :=
  ∀ x ∈ w, x.kept = false → x.byte ≠ loopByte ∧ x.byte ≠ againByte

/-- What two scans come to, one on the full tape and one on the short tape: both find the byte behind one
cut, or both find nothing. -/
inductive SameScan (w : List Mark) : Scan → Scan → Prop
  | unmatched {i j : Int} : SameScan w (.unmatched i) (.unmatched j)
  | found {u v : List Mark} {x : Mark} (hw : w = u ++ x :: v) (hx : x.kept = true) :
      SameScan w (.found u.length) (.found (keptBytes u).length)

namespace Tape

section Scans

variable {t t' : Tape} {u v : List Mark} {x : Mark}

/-- **A forward scan from a byte that is kept finds the same byte on both tapes.** -/
theorem scanForward_kept (ht : IsWord t.size) (ht' : IsWord t'.size)
    (h : t.bytes.toList = allBytes (u ++ x :: v)) (h' : t'.bytes.toList = keptBytes (u ++ x :: v))
    (hx : x.kept = true) (hw : KeepsBrackets (u ++ x :: v)) :
    SameScan (u ++ x :: v) (t.scanForward u.length) (t'.scanForward (keptBytes u).length) := by
  have hv : ∀ y ∈ v, y.kept = false → y.byte ≠ loopByte ∧ y.byte ≠ againByte :=
    fun y hy ↦ hw y (by simp [hy])
  have hcut := seek_kept loopByte_ne_againByte hv 0
  rw [allBytes_append, allBytes_cons] at h
  rw [keptBytes_append, keptBytes_cons_of_kept hx] at h'
  rw [← length_allBytes u, scanForward_of_toList ht h, scanForward_of_toList ht' h']
  generalize seek loopByte againByte 0 (allBytes v) = r at hcut
  generalize seek loopByte againByte 0 (keptBytes v) = r' at hcut
  cases hcut with
  | never => exact .unmatched
  | @before u₁ v₁ y hy hkept =>
    have hsplit : u ++ x :: v = (u ++ x :: u₁) ++ y :: v₁ := by
      rw [hy]
      simp
    have hlen : (allBytes u).length + 1 + u₁.length = (u ++ x :: u₁).length := by
      rw [length_allBytes, List.length_append, List.length_cons]
      omega
    have hlen' : (keptBytes u).length + 1 + (keptBytes u₁).length
        = (keptBytes (u ++ x :: u₁)).length := by
      rw [keptBytes_append, keptBytes_cons_of_kept hx, List.length_append, List.length_cons]
      omega
    simp only [hlen, hlen']
    exact .found hsplit hkept

/-- **A backward scan finds the same byte on both tapes.** -/
theorem scanBackward_kept (ht : IsWord t.size) (ht' : IsWord t'.size)
    (h : t.bytes.toList = allBytes (u ++ x :: v)) (h' : t'.bytes.toList = keptBytes (u ++ x :: v))
    (hx : x.kept = true) (hw : KeepsBrackets (u ++ x :: v)) :
    SameScan (u ++ x :: v) (t.scanBackward u.length) (t'.scanBackward (keptBytes u).length) := by
  have hu : ∀ y ∈ u.reverse, y.kept = false → y.byte ≠ againByte ∧ y.byte ≠ loopByte :=
    fun y hy hkept ↦ (hw y (by simp [List.mem_reverse.mp hy]) hkept).symm
  have hcut := seek_kept loopByte_ne_againByte.symm hu 0
  rw [allBytes_append, allBytes_cons] at h
  rw [keptBytes_append, keptBytes_cons_of_kept hx] at h'
  rw [allBytes_reverse, keptBytes_reverse] at hcut
  rw [← length_allBytes u, scanBackward_of_toList ht h, scanBackward_of_toList ht' h']
  generalize seek againByte loopByte 0 (allBytes u).reverse = r at hcut
  generalize seek againByte loopByte 0 (keptBytes u).reverse = r' at hcut
  cases hcut with
  | never => exact .unmatched
  | @before u₁ v₁ y hy hkept =>
    have hsplit : u = v₁.reverse ++ y :: u₁.reverse := by
      rw [← List.reverse_reverse u, hy]
      simp
    have hlen : (allBytes u).length - 1 - u₁.length = v₁.reverse.length := by
      simp only [length_allBytes, hsplit, List.length_append, List.length_cons, List.length_reverse]
      omega
    have hlen' : (keptBytes u).length - 1 - (keptBytes u₁).length
        = (keptBytes v₁.reverse).length := by
      simp only [hsplit, keptBytes_append, keptBytes_cons_of_kept hkept, keptBytes_reverse,
        List.length_append, List.length_cons, List.length_reverse]
      omega
    simp only [hlen, hlen']
    exact .found (v := u₁.reverse ++ x :: v) (by rw [hsplit, List.append_assoc]; rfl) hkept

end Scans

/-! ## The marks of a tape -/

/-- The bytes of a tape, of which those of the program stay that pass a test, and all others do. -/
def marks (keep : UInt8 → Bool) (t : Tape) : List Mark :=
  ⟨t.storage, true⟩ :: (t.code.map (fun b ↦ ⟨b, keep b⟩) ++ t.data.map (fun b ↦ ⟨b, true⟩))

/-- Which bytes of a tape stay.  This does not depend on what is in its cells. -/
def keeps (keep : UInt8 → Bool) (t : Tape) : List Bool :=
  true :: (t.code.map keep ++ List.replicate t.data.length true)

variable {keep : UInt8 → Bool}

theorem map_kept_marks (t : Tape) : (t.marks keep).map Mark.kept = t.keeps keep := by
  simp [marks, keeps, Function.comp_def, List.map_const']

theorem allBytes_marks (t : Tape) : allBytes (t.marks keep) = t.bytes.toList := by
  rw [t.toList_bytes]
  simp [marks, allBytes, Function.comp_def]

/-- What is kept of a tape is the tape of what is kept of the program. -/
theorem keptBytes_marks {t t' : Tape} (hs : t'.storage = t.storage)
    (hc : t'.code = t.code.filter keep) (hd : t'.data = t.data) :
    keptBytes (t.marks keep) = t'.bytes.toList := by
  rw [t'.toList_bytes, hs, hc, hd]
  simp [marks, keptBytes, allBytes, List.filter_map, Function.comp_def]

theorem keep_of_mem_marks {t : Tape} {x : Mark} (h : x ∈ t.marks keep) (hx : x.kept = false) :
    keep x.byte = false := by
  simp only [marks, List.mem_cons, List.mem_append, List.mem_map] at h
  rcases h with rfl | ⟨b, -, rfl⟩ | ⟨b, -, rfl⟩
  · cases hx
  · exact hx
  · cases hx

/-- Where the flags of a tape are cut, its marks are cut as well. -/
theorem exists_marks {t : Tape} {u w : List Bool} {b : Bool} (h : t.keeps keep = u ++ b :: w) :
    ∃ p x q, t.marks keep = p ++ x :: q ∧ x.kept = b ∧ p.length = u.length ∧
      (keptBytes p).length = u.count true := by
  rw [← map_kept_marks, List.map_eq_append_iff] at h
  obtain ⟨p, l, hl, hp, hq⟩ := h
  obtain ⟨x, q, rfl, hx, -⟩ := List.map_eq_cons_iff.mp hq
  exact ⟨p, x, q, hl, hx, by rw [← hp, List.length_map], by rw [length_keptBytes, hp]⟩

theorem length_keeps (keep : UInt8 → Bool) (t : Tape) : (t.keeps keep).length = t.size := by
  rw [t.size_eq, keeps, List.length_cons, List.length_append, List.length_map,
    List.length_replicate]
  omega

theorem count_map_keep (l : List UInt8) : (l.map keep).count true = (l.filter keep).length := by
  rw [List.count, List.countP_map, ← List.countP_eq_length_filter]
  congr 1
  funext b
  simp

theorem count_keeps {t t' : Tape} (hc : t'.code = t.code.filter keep) (hd : t'.data = t.data) :
    (t.keeps keep).count true = t'.size := by
  rw [t'.size_eq, hc, hd, keeps, List.count_cons_self, List.count_append, count_map_keep,
    List.count_replicate_self]
  omega

end Tape
end TapeMachine
