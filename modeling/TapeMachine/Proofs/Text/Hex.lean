import TapeMachine.Text.Escape
import TapeMachine.Text.Hex

/-!
# Hexadecimal numbers can be read back

Two numbers stand in a dump: a byte in two digits, and an offset filled up with zeros to some width.  Both are
made of upper-case digits only, and are read back as the number they were made from, however many digits it
has (`hexNumber?_upperHexByte`, `hexNumber?_paddedHex`).
-/

set_option autoImplicit false
namespace TapeMachine.Text

/-! ## Digits -/

theorem digitValue?_upperHexDigit {d : Nat} (h : d < 16) : digitValue? (upperHexDigit d) = some d := by
  have hall : ∀ d : Fin 16, digitValue? (upperHexDigit d) = some d.val := by decide
  exact hall ⟨d, h⟩

/-- The digits lie between `0` and `F` in the table of characters. -/
theorem toNat_upperHexDigit {d : Nat} (h : d < 16) :
    48 ≤ (upperHexDigit d).toNat ∧ (upperHexDigit d).toNat ≤ 70 := by
  have hall : ∀ d : Fin 16, 48 ≤ (upperHexDigit d).toNat ∧ (upperHexDigit d).toNat ≤ 70 := by decide
  exact hall ⟨d, h⟩

theorem toUpper_digitChar {d : Nat} (h : d < 16) : d.digitChar.toUpper = upperHexDigit d := by
  have hall : ∀ d : Fin 16, (Nat.digitChar d).toUpper = upperHexDigit d := by decide
  exact hall ⟨d, h⟩

/-- Only digits stand in a text. -/
def IsHex (cs : List Char) : Prop :=
  ∀ c ∈ cs, ∃ d < 16, c = upperHexDigit d

theorem IsHex.append {cs cs' : List Char} (h : IsHex cs) (h' : IsHex cs') : IsHex (cs ++ cs') :=
  fun c hc ↦ (List.mem_append.mp hc).elim (h c) (h' c)

theorem isHex_singleton {d : Nat} (h : d < 16) : IsHex [upperHexDigit d] :=
  fun _ hc ↦ ⟨d, h, List.mem_singleton.mp hc⟩

/-- A text of digits is read as the number they make up. -/
theorem IsHex.hexNumber? {cs : List Char} (h : IsHex cs) : hexNumber? cs = some (numberIn 16 cs) := by
  refine if_pos (List.all_eq_true.mpr fun c hc ↦ ?_)
  obtain ⟨d, hd, rfl⟩ := h c hc
  simp [isDigitIn, digitValue?_upperHexDigit hd, hd]

theorem numberIn_append_digit (cs : List Char) {d : Nat} (h : d < 16) :
    numberIn 16 (cs ++ [upperHexDigit d]) = numberIn 16 cs * 16 + d := by
  simp [numberIn, digitValue?_upperHexDigit h]

/-! ## Bytes -/

theorem isHex_upperHexByte (b : UInt8) : IsHex (upperHexByte b) :=
  (isHex_singleton (by have := b.toNat_lt; omega)).append (isHex_singleton (by omega))

/-- **A byte is read back from its two digits.** -/
theorem hexNumber?_upperHexByte (b : UInt8) : hexNumber? (upperHexByte b) = some b.toNat := by
  have hb := b.toNat_lt
  have hhigh : b.toNat / 16 < 16 := by omega
  have hlow : b.toNat % 16 < 16 := by omega
  have hdigits : upperHexByte b =
      [] ++ [upperHexDigit (b.toNat / 16)] ++ [upperHexDigit (b.toNat % 16)] := rfl
  rw [(isHex_upperHexByte b).hexNumber?, hdigits, numberIn_append_digit _ hlow,
    numberIn_append_digit _ hhigh]
  exact congrArg some (by simp only [numberIn, List.foldl_nil]; omega)

/-! ## Offsets -/

/-- The last digit of a number stands for its remainder. -/
theorem upperHexDigits_of_le {n : Nat} (h : 16 ≤ n) :
    upperHexDigits n = upperHexDigits (n / 16) ++ [upperHexDigit (n % 16)] := by
  rw [upperHexDigits, Nat.toDigits_of_base_le (by decide) h, List.map_append, List.map_singleton,
    toUpper_digitChar (by omega), upperHexDigits]

theorem upperHexDigits_of_lt {n : Nat} (h : n < 16) : upperHexDigits n = [upperHexDigit n] := by
  rw [upperHexDigits, Nat.toDigits_of_lt_base h, List.map_singleton, toUpper_digitChar h]

theorem isHex_upperHexDigits (n : Nat) : IsHex (upperHexDigits n) := by
  induction n using Nat.strongRecOn with
  | ind n ih =>
    rcases Nat.lt_or_ge n 16 with h | h
    · rw [upperHexDigits_of_lt h]
      exact isHex_singleton h
    · rw [upperHexDigits_of_le h]
      exact (ih (n / 16) (by omega)).append (isHex_singleton (by omega))

theorem numberIn_upperHexDigits (n : Nat) : numberIn 16 (upperHexDigits n) = n := by
  induction n using Nat.strongRecOn with
  | ind n ih =>
    rcases Nat.lt_or_ge n 16 with h | h
    · rw [upperHexDigits_of_lt h]
      simpa [numberIn] using numberIn_append_digit [] h
    · rw [upperHexDigits_of_le h, numberIn_append_digit _ (by omega), ih (n / 16) (by omega)]
      omega

/-- Zeros in front do not count. -/
theorem numberIn_replicate_append (base k : Nat) (cs : List Char) :
    numberIn base (List.replicate k '0' ++ cs) = numberIn base cs := by
  have hzero : (digitValue? '0').getD 0 = 0 := by decide
  induction k with
  | zero => rfl
  | succ k ih =>
    rw [← ih]
    simp [numberIn, List.replicate_succ, hzero]

theorem paddedHex_natCast (width n : Nat) :
    paddedHex width n =
      List.replicate (width - (upperHexDigits n).length) '0' ++ upperHexDigits n := by
  rw [paddedHex, if_neg (Int.not_lt.mpr (Int.natCast_nonneg n)), Int.natAbs_natCast]

theorem isHex_paddedHex (width n : Nat) : IsHex (paddedHex width n) := by
  rw [paddedHex_natCast]
  refine IsHex.append (fun c hc ↦ ⟨0, by decide, ?_⟩) (isHex_upperHexDigits n)
  exact List.eq_of_mem_replicate hc

/-- **An offset is read back**, also if it is wider than its column. -/
theorem hexNumber?_paddedHex (width n : Nat) : hexNumber? (paddedHex width n) = some n := by
  rw [(isHex_paddedHex width n).hexNumber?, paddedHex_natCast, numberIn_replicate_append,
    numberIn_upperHexDigits]

end TapeMachine.Text
