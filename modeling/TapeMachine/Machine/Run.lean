import TapeMachine.Machine.Step

/-!
# Runs

A run ticks a machine until it stops or fails.  Since a program may run forever, `runFor` is given the
number of ticks after which it pauses.  A paused run is continued by running again: `runFor_add` says
that pausing makes no difference.
-/

set_option autoImplicit false
namespace TapeMachine

/-- Where a run got to.  There is no outcome while the run is merely paused. -/
structure Run (σ : Type) where
  machine : Machine
  channel : σ
  outcome : Option (Outcome Unit)

namespace Machine

variable {σ : Type} [Channel σ]

/-- Runs a machine for at most `n` ticks. -/
def runFor : Nat → Machine → σ → Run σ
  | 0, m, c => ⟨m, c, none⟩
  | n + 1, m, c =>
    match m.tick c with
    | ⟨m, c, .ok true⟩ => ⟨m, c, some (.ok ())⟩
    | ⟨m, c, .ok false⟩ => runFor n m c
    | ⟨m, c, .error e⟩ => ⟨m, c, some (.error e)⟩
    | ⟨m, c, .offTape⟩ => ⟨m, c, some .offTape⟩

/-- A run may be paused anywhere. -/
theorem runFor_add (n k : Nat) (m : Machine) (c : σ) :
    runFor (n + k) m c =
      match (runFor n m c).outcome with
      | some _ => runFor n m c
      | none => runFor k (runFor n m c).machine (runFor n m c).channel := by
  induction n generalizing m c with
  | zero => simp [runFor]
  | succ n ih =>
    rw [Nat.succ_add]
    simp only [runFor]
    split <;> simp_all

end Machine

end TapeMachine
