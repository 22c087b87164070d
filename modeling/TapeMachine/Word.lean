/-!
# Signed words

Positions on the tape, and the distances the data pointer is moved by, are signed 64-bit words.  We
keep them as integers, so that a position can be compared with a length directly, and take sums and
differences modulo `2 ^ 64` with `wrap`.

As long as nothing leaves the range of words, wrapping does nothing (`wrap_eq_self`).
-/

set_option autoImplicit false
namespace TapeMachine

/-- The signed 64-bit word that agrees with `n` modulo `2 ^ 64`. -/
def wrap (n : Int) : Int :=
  (n + 9223372036854775808) % 18446744073709551616 - 9223372036854775808

/-- The signed 64-bit words among the integers. -/
def IsWord (n : Int) : Prop :=
  -9223372036854775808 ≤ n ∧ n < 9223372036854775808

instance (n : Int) : Decidable (IsWord n) :=
  inferInstanceAs (Decidable (_ ∧ _))

theorem wrap_eq_self {n : Int} (h : IsWord n) : wrap n = n := by
  unfold IsWord at h; unfold wrap; omega

end TapeMachine
