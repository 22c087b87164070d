import TapeMachine.Proofs.Console.Willing
import TapeMachine.Proofs.Structured.Simulation

/-!
# A program that multiplies

The program `+…+[>+…+<-]>.`, with `a` times `+` in front and `b` times `+` in its loop, sends the product of
`a` and `b`.  The numbers are as large as one likes, and the cells are not: the first cell counts down from
`a` modulo 256, so that the loop is passed over altogether where that is zero, and the second cell sums up
modulo 256.

As a tree the program is short (`Tree.product`), and so is its evaluation.  A row of `+` adds its length to
the cell it finds (`Tree.Eval.increments`).  The loop keeps the sum of the second cell and the product of the
first cell and `b`, whatever the two cells hold when it is entered (`eval_timesLoop`).  That the machine gets
there, with brackets that are as far apart as `b` wants, is what the trees are for.
-/

set_option autoImplicit false
namespace TapeMachine

open Operator (loopByte againByte)

/-! ## The program -/

/-- The program that multiplies `a` and `b`. -/
def product (a b : Nat) : List UInt8 :=
  List.replicate a 0x2b ++ [0x5b, 0x3e] ++ List.replicate b 0x2b ++ [0x3c, 0x2d, 0x5d, 0x3e, 0x2e]

namespace Tree

/-- So many `+` in front of a tree. -/
def increments : Nat → Tree → Tree
  | 0, rest => rest
  | n + 1, rest => .byte 0x2b (by decide) (increments n rest)

theorem flatten_increments (n : Nat) (rest : Tree) :
    (increments n rest).flatten = List.replicate n 0x2b ++ rest.flatten := by
  induction n with
  | zero => rfl
  | succ n ih => simp [increments, flatten, ih, List.replicate_succ]

/-- A `>` is no bracket. -/
theorem plain_right : (0x3e : UInt8) ≠ loopByte ∧ (0x3e : UInt8) ≠ againByte := by decide

/-- A `.` is no bracket. -/
theorem plain_output : (0x2e : UInt8) ≠ loopByte ∧ (0x2e : UInt8) ≠ againByte := by decide

/-- What the loop repeats: it adds `b` to the next cell and takes one from this one. -/
def timesBody (b : Nat) : Tree :=
  .byte 0x3e plain_right (increments b (.byte 0x3c (by decide) (.byte 0x2d (by decide) .nil)))

/-- Steps to the next cell and sends it. -/
def sendNext : Tree :=
  .byte 0x3e plain_right (.byte 0x2e plain_output .nil)

def product (a b : Nat) : Tree :=
  increments a (.loop (timesBody b) sendNext)

theorem flatten_product (a b : Nat) : (product a b).flatten = TapeMachine.product a b := by
  simp [product, timesBody, sendNext, flatten_increments, flatten, TapeMachine.product]

end Tree

/-! ## Two cells -/

namespace Memory

/-- Two cells in front of others, with the data pointer on the first. -/
def first (x y : UInt8) (others : List UInt8) : Memory :=
  ⟨x :: y :: others, 0, Nat.zero_lt_succ _⟩

/-- Two cells in front of others, with the data pointer on the second. -/
def second (x y : UInt8) (others : List UInt8) : Memory :=
  ⟨x :: y :: others, 1, by simp⟩

variable (x y v : UInt8) (others : List UInt8)

@[simp] theorem cell_first : (first x y others).cell = x := rfl

@[simp] theorem cell_second : (second x y others).cell = y := rfl

@[simp] theorem write_second : (second x y others).write v = second x v others := rfl

@[simp] theorem right_first : (first x y others).right = second x y others := by
  simp [right, first, second]

theorem blank_eq_first {dataLength : Int} (hd : 1 ≤ dataLength) (htwo : 2 ≤ dataLength) :
    blank hd = first 0 0 (List.replicate (dataLength.toNat - 2) 0) := by
  refine Memory.ext ?_ rfl
  obtain ⟨n, hn⟩ : ∃ n, dataLength.toNat = n + 2 := ⟨dataLength.toNat - 2, by omega⟩
  simp [blank, first, hn, List.replicate_succ]

end Memory

/-! ## Evaluation -/

namespace Tree

variable {σ : Type} [Channel σ] {c : σ} {r : Result σ}

/-- A row of `+` adds up. -/
theorem Eval.increments {rest : Tree} (n : Nat) : ∀ {mem : Memory},
    rest.Eval (mem.write (mem.cell + UInt8.ofNat n)) c r → (Tree.increments n rest).Eval mem c r := by
  induction n with
  | zero =>
    intro mem h
    rw [show UInt8.ofNat 0 = 0 from rfl, UInt8.add_zero, Memory.write_cell] at h
    exact h
  | succ n ih =>
    intro mem h
    refine .byte rfl (ih ?_)
    rw [Memory.cell_write, Memory.write_write, UInt8.add_assoc]
    rw [Nat.add_comm, UInt8.ofNat_add] at h
    exact h

/-- Once round the loop. -/
theorem eval_timesBody (b : Nat) (x y : UInt8) (others : List UInt8) :
    (timesBody b).Eval (.first x y others) c
      (.done (.first (x - 1) (y + UInt8.ofNat b) others) c) := by
  refine .byte rfl (Eval.increments b ?_)
  rw [Memory.right_first, Memory.cell_second, Memory.write_second]
  exact .byte rfl (.byte rfl .nil)

/-- **The loop adds up.**  It leaves the first cell at zero, and in the second cell what that held and the
product of the first cell and `b`. -/
theorem eval_timesLoop {b : Nat} {rest : Tree} {others : List UInt8} : ∀ (n : Nat) {x y : UInt8},
    x.toNat = n → rest.Eval (.first 0 (y + x * UInt8.ofNat b) others) c r →
      (loop (timesBody b) rest).Eval (.first x y others) c r
  | 0, x, y, hx, h => by
    obtain rfl : x = 0 := UInt8.toNat_inj.mp hx
    rw [UInt8.zero_mul, UInt8.add_zero] at h
    exact .loopDone rfl h
  | n + 1, x, y, hx, h => by
    have hne : x ≠ 0 := by
      rintro rfl
      cases hx
    have hpred : (x - 1).toNat = n := by
      have hlt := x.toNat_lt
      rw [UInt8.toNat_sub, UInt8.toNat_one]
      omega
    refine .loopAgain hne (eval_timesBody b x y others) (eval_timesLoop n hpred ?_)
    have hsum : y + UInt8.ofNat b + (x - 1) * UInt8.ofNat b = y + x * UInt8.ofNat b := by
      grind
    rw [hsum]
    exact h

/-- The whole program multiplies, and sends what comes of it. -/
theorem eval_product (a b : Nat) (others : List UInt8) {c' : σ}
    (hsend : Channel.send (UInt8.ofNat (a * b)) c = (.ok (), c')) :
    (product a b).Eval (.first 0 0 others) c (.done (.second 0 (UInt8.ofNat (a * b)) others) c') := by
  refine Eval.increments a (eval_timesLoop _ rfl ?_)
  rw [Memory.cell_first, UInt8.zero_add, UInt8.zero_add, ← UInt8.ofNat_mul]
  refine .byte rfl (.byte ?_ .nil)
  simp only [Memory.right_first, Memory.obey, Memory.cell_second, hsend]

end Tree

open Machine

/-- **The program multiplies, whatever the operands.**  A machine that is built on it, with or without a jump
table, on at least two cells, at level zero and without a limit to its ticks, comes to its end on every console
whose output never fails.  It has sent a single byte, which is the product modulo 256, and has asked for none.
It leaves the first cell at zero, the second at the product modulo 256 with the data pointer on it, and all
others at zero.

The length of the tape is taken to be a word. -/
theorem returns_product (a b : Nat) {dataLength tickLimit : Int} (hd : 2 ≤ dataLength)
    (hsize : IsWord (1 + (product a b).length + dataLength)) (precompute : Bool)
    (hlimit : tickLimit ≤ 0) {con : Console} {out : Output} (hcon : con.output = some out)
    (hout : out.Willing) :
    ∃ m m' out' v, build (product a b) dataLength ⟨0, precompute, tickLimit⟩ = .ok m ∧
      m.Returns (some con) m' (some { con with output := some out', sent := con.sent + 1 }) (.ok ()) ∧
      v.toNat = a * b % 256 ∧ out'.taken = out.taken ++ [v] ∧
      m'.tape.data = 0 :: v :: List.replicate (dataLength.toNat - 2) 0 ∧ m'.ptr.offset = 1 := by
  have hone : 1 ≤ dataLength := by omega
  rw [← Tree.flatten_product] at hsize ⊢
  have hsound := sound_fresh (Tree.product a b).flatten hone hsize ⟨0, precompute, tickLimit⟩
  have henters := enters_fresh (Tree.product a b) hone hsize ⟨0, precompute, tickLimit⟩ rfl hlimit
  obtain ⟨out', hsend, -, htaken⟩ := Console.send_of_willing hcon hout (UInt8.ofNat (a * b))
  rw [Memory.blank_eq_first hone hd] at henters
  obtain ⟨m', hret, hdata, hptr⟩ :=
    returns_of_eval_done hsound henters (Tree.eval_product a b _ (Console.send_some hsend))
  exact ⟨_, m', out', _, build_eq_ok_iff.mpr ⟨Int.le_refl 0, hone, rfl⟩, hret, UInt8.toNat_ofNat', htaken,
    hdata, congrArg Tape.Address.offset hptr⟩

/-- Sixteen times seventeen is more than a cell can hold: what is sent is 16.  With no `+` in front, the loop is
passed over. -/
theorem returns_product_overflow :
    let con : Console := { output := some (.buffered (.ofSize 0 {})) }
    (∃ m m' out', build (product 16 17) 3 ⟨0, true, 0⟩ = .ok m ∧
      m.Returns (some con) m' (some { con with output := some out', sent := 1 }) (.ok ()) ∧
      out'.taken = [16] ∧ m'.tape.data = [0, 16, 0] ∧ m'.ptr.offset = 1) ∧
    ∃ m m' out', build (product 0 17) 2 ⟨0, false, 0⟩ = .ok m ∧
      m.Returns (some con) m' (some { con with output := some out', sent := 1 }) (.ok ()) ∧
      out'.taken = [0] ∧ m'.tape.data = [0, 0] ∧ m'.ptr.offset = 1 := by
  intro con
  have hwilling : Output.Willing (.buffered (.ofSize 0 {})) := Buffer.willing_ofSize 0 rfl
  have hbyte : ∀ {v : UInt8} {n : Nat}, v.toNat = n → v = UInt8.ofNat n := by
    rintro v _ rfl
    exact UInt8.ofNat_toNat.symm
  constructor
  · obtain ⟨m, m', out', v, hbuild, hret, hv, htaken, hdata, hptr⟩ :=
      returns_product 16 17 (show (2 : Int) ≤ 3 by decide) (by decide) true (Int.le_refl 0)
        (show con.output = some _ from rfl) hwilling
    obtain rfl : v = 16 := hbyte hv
    exact ⟨m, m', out', hbuild, hret, htaken, hdata, hptr⟩
  · obtain ⟨m, m', out', v, hbuild, hret, hv, htaken, hdata, hptr⟩ :=
      returns_product 0 17 (show (2 : Int) ≤ 2 by decide) (by decide) false (Int.le_refl 0)
        (show con.output = some _ from rfl) hwilling
    obtain rfl : v = 0 := hbyte hv
    exact ⟨m, m', out', hbuild, hret, htaken, hdata, hptr⟩

end TapeMachine
