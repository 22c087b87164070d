/-!
# Walks with an early stop

A walk hands the values of a sequence, one at a time, to a consumer, which says after each value
whether it wants another (`ForInStep.yield`) or not (`ForInStep.done`).  Walking a list of sequences
goes through them in turn, and an early stop inside one of them stops the whole walk.

`firstOf` is the consumer that keeps the first `k` values.  It also counts how often it was called,
which is how many values the sequences were asked for.
-/

set_option autoImplicit false
namespace TapeMachine.Walk

variable {α σ : Type}

/-- Hands the values of a sequence to a consumer. -/
def each (f : α → σ → ForInStep σ) : List α → σ → ForInStep σ
  | [], s => .yield s
  | a :: as, s =>
    match f a s with
    | .done s => .done s
    | .yield s => each f as s

/-- Hands the values of each sequence in turn to a consumer. -/
def concat (f : α → σ → ForInStep σ) : List (List α) → σ → ForInStep σ
  | [], s => .yield s
  | xs :: xss, s =>
    match each f xs s with
    | .done s => .done s
    | .yield s => concat f xss s

/-- What a consumer that stops early has seen. -/
structure Seen (α : Type) where
  got : Array α := #[]
  pulled : Nat := 0

/-- Keeps a value, and stops once `k` values are kept.  Without a bound it never stops. -/
def keep (k : Option Nat) (a : α) (s : Seen α) : ForInStep (Seen α) :=
  let s := { got := s.got.push a, pulled := s.pulled + 1 : Seen α }
  if k = some s.got.size then .done s else .yield s

/-- The first `k` values of some sequences, in turn.  Nothing is asked for when `k` is zero. -/
def firstOf (k : Option Nat) (xss : List (List α)) : Seen α :=
  if k = some 0 then {} else (concat (keep k) xss {}).value

end TapeMachine.Walk
