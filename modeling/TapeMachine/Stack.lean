/-!
# Stacks

A last-in, first-out store, used to pair brackets.  The view of a stack is `toList`, which lists it
from the bottom to the top.
-/

set_option autoImplicit false
namespace TapeMachine

/-- A stack; the top is the head of `items`. -/
structure Stack (α : Type) where
  items : List α := []
  deriving DecidableEq, Repr

namespace Stack

variable {α : Type}

/-- The contents from the bottom to the top. -/
def toList (s : Stack α) : List α :=
  s.items.reverse

def isEmpty (s : Stack α) : Bool :=
  s.items.isEmpty

def push (s : Stack α) (a : α) : Stack α :=
  ⟨a :: s.items⟩

/-- The value on top. -/
def peek? (s : Stack α) : Option α :=
  s.items.head?

/-- The stack without its top; an empty stack stays as it is. -/
def pop (s : Stack α) : Stack α :=
  ⟨s.items.tail⟩

@[simp] theorem toList_push (s : Stack α) (a : α) : (s.push a).toList = s.toList ++ [a] := by
  simp [toList, push]

@[simp] theorem peek?_push (s : Stack α) (a : α) : (s.push a).peek? = some a := rfl

@[simp] theorem pop_push (s : Stack α) (a : α) : (s.push a).pop = s := rfl

end Stack

end TapeMachine
