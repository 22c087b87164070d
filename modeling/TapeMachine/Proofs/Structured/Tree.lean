import TapeMachine.Proofs.Machine.View
import TapeMachine.Proofs.Tape.Brackets

/-!
# Programs as trees

The machine knows nothing of loops.  It has a code pointer, and two operators that move it to the partner
of a bracket.  A programmer thinks of the same text as a tree: a sequence of bytes, some of which are
loops around further sequences.  This file says what such a tree means, without a code pointer and without
a tape.

* `Tree` is the syntax, and `Tree.flatten` writes a tree down as a program.  What is written is balanced
  (`Tree.balanced_flatten`), which is all that a scan will ever need to know about it.
* `Memory.obey` is the effect of a single byte on the data cells and the channel, and `Tree.Eval` the
  big-step semantics.  An evaluation ends normally, or it is stopped by a failure of the channel.

That the machine does the same is shown in `TapeMachine.Proofs.Structured.Simulation`.
-/

set_option autoImplicit false
namespace TapeMachine

open Operator (loopByte againByte)

/-! ## Evaluation -/

/-- How an evaluation ends. -/
inductive Result (σ : Type) where
  /-- It comes to the end of the program. -/
  | done (mem : Memory) (channel : σ)
  /-- The channel fails. -/
  | failed (mem : Memory) (channel : σ) (e : Error)

variable {σ : Type}

/-- The effect of a byte other than a bracket.  Bytes without a meaning have none. -/
def Memory.obey [Channel σ] (b : UInt8) (mem : Memory) (c : σ) : Result σ :=
  match b with
  | 0x2b => .done (mem.write (mem.cell + 1)) c
  | 0x2d => .done (mem.write (mem.cell - 1)) c
  | 0x3e => .done mem.right c
  | 0x3c => .done mem.left c
  | 0x2e =>
    match Channel.send mem.cell c with
    | (.ok (), c) => .done mem c
    | (.error e, c) => .failed mem c e
  | 0x2c =>
    match Channel.receive c with
    -- a newline is stored as zero
    | (.ok v, c) => .done (mem.write (if v = 0x0a then 0 else v)) c
    | (.error e, c) => .failed mem c e
  | _ => .done mem c

/-- A sequence of bytes and loops. -/
inductive Tree where
  | nil
  | byte (b : UInt8) (plain : b ≠ loopByte ∧ b ≠ againByte) (rest : Tree)
  | loop (body rest : Tree)

namespace Tree

/-- A tree as it is written down. -/
def flatten : Tree → List UInt8
  | nil => []
  | byte b _ rest => b :: rest.flatten
  | loop body rest => loopByte :: (body.flatten ++ againByte :: rest.flatten)

theorem balanced_flatten (t : Tree) : Balanced loopByte againByte t.flatten := by
  induction t with
  | nil => exact .nil
  | byte b hb rest ih => exact ih.cons hb.1 hb.2
  | loop body rest ihb ihr => exact ihb.nest ihr

/-- **The meaning of a tree.**  A loop repeats its body while the cell under the data pointer is not zero. -/
inductive Eval [Channel σ] : Tree → Memory → σ → Result σ → Prop
  | nil {mem : Memory} {c : σ} : Eval nil mem c (.done mem c)
  | byte {b : UInt8} {plain : b ≠ loopByte ∧ b ≠ againByte} {rest : Tree} {mem mem₁ : Memory}
      {c c₁ : σ} {r : Result σ} (hb : mem.obey b c = .done mem₁ c₁) (hrest : Eval rest mem₁ c₁ r) :
      Eval (byte b plain rest) mem c r
  | byteFailed {b : UInt8} {plain : b ≠ loopByte ∧ b ≠ againByte} {rest : Tree} {mem mem₁ : Memory}
      {c c₁ : σ} {e : Error} (hb : mem.obey b c = .failed mem₁ c₁ e) :
      Eval (byte b plain rest) mem c (.failed mem₁ c₁ e)
  | loopDone {body rest : Tree} {mem : Memory} {c : σ} {r : Result σ} (h : mem.cell = 0)
      (hrest : Eval rest mem c r) : Eval (loop body rest) mem c r
  | loopAgain {body rest : Tree} {mem mem₁ : Memory} {c c₁ : σ} {r : Result σ} (h : mem.cell ≠ 0)
      (hbody : Eval body mem c (.done mem₁ c₁)) (hagain : Eval (loop body rest) mem₁ c₁ r) :
      Eval (loop body rest) mem c r
  | loopFailed {body rest : Tree} {mem mem₁ : Memory} {c c₁ : σ} {e : Error} (h : mem.cell ≠ 0)
      (hbody : Eval body mem c (.failed mem₁ c₁ e)) :
      Eval (loop body rest) mem c (.failed mem₁ c₁ e)

end Tree
end TapeMachine
