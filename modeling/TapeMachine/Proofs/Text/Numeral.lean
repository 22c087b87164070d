import TapeMachine.Text.Number
import TapeMachine.Word

/-!
# Numerals

A decimal numeral is a row of digits, with or without a sign, and stands for an integer of any size.  A text is
read as a number exactly if it is a numeral for a word, and then as that word (`decimalInt_eq_ok_iff`).

The reader is not as simple as that.  It stops at a number that has become too large, before it has seen the
other characters, and treats the lowest word apart, since its size is not a word.  None of that matters for what
is read, because a number only grows with its digits (`le_numberFrom`).
-/

set_option autoImplicit false
namespace TapeMachine.Text

/-- A row of decimal digits, and the number they make up. -/
structure DigitRow (ds : List Char) (n : Nat) : Prop where
  ne_nil : ds ≠ []
  isDigit : ∀ c ∈ ds, c.isDigit
  value_eq : Nat.ofDigitChars 10 ds 0 = n

/-- A decimal numeral, and the integer it stands for. -/
inductive Numeral : List Char → Int → Prop
  | plain {ds : List Char} {n : Nat} (h : DigitRow ds n) : Numeral ds n
  | plus {ds : List Char} {n : Nat} (h : DigitRow ds n) : Numeral ('+' :: ds) n
  | minus {ds : List Char} {n : Nat} (h : DigitRow ds n) : Numeral ('-' :: ds) (-n)

theorem DigitRow.unique {ds : List Char} {n k : Nat} (hn : DigitRow ds n) (hk : DigitRow ds k) : n = k :=
  hn.value_eq.symm.trans hk.value_eq

/-- The digits of a number are a row of digits for it. -/
theorem digitRow_toDigits (n : Nat) : DigitRow (Nat.toDigits 10 n) n :=
  ⟨Nat.toDigits_ne_nil, fun _ ↦ Nat.isDigit_of_mem_toDigits (by decide) (by decide),
    Nat.ofDigitChars_toDigits (by decide) (by decide)⟩

/-- The digits of a number do not begin with a zero, unless it is the only one. -/
theorem head?_toDigits {n : Nat} (hn : n ≠ 0) : (Nat.toDigits 10 n).head? ≠ some '0' := by
  induction n using Nat.strongRecOn with
  | ind n ih =>
    rcases Nat.lt_or_ge n 10 with h | h
    · have hall : ∀ d : Fin 10, d.val ≠ 0 → Nat.digitChar d ≠ '0' := by decide
      rw [Nat.toDigits_of_lt_base h, List.head?_cons]
      exact fun heq ↦ hall ⟨n, h⟩ hn (Option.some.inj heq)
    · obtain ⟨c, cs, hcs⟩ := List.exists_cons_of_ne_nil (Nat.toDigits_ne_nil (n := n / 10) (b := 10))
      have hhead := ih (n / 10) (by omega) (by omega)
      rw [hcs] at hhead
      rw [Nat.toDigits_of_base_le (by decide) h, hcs]
      exact hhead

/-! ## Magnitudes -/

/-- The number whose digits in a base follow those of `n`. -/
def numberFrom (base n : Nat) (digits : List Char) : Nat :=
  digits.foldl (fun n c ↦ n * base + (digitValue? c).getD 0) n

theorem digitValue?_of_isDigit {c : Char} (h : c.isDigit) : digitValue? c = some (c.toNat - '0'.toNat) :=
  if_pos h

/-- The digits in base ten are the usual ones. -/
theorem isDigitIn_ten (c : Char) : isDigitIn 10 c = c.isDigit := by
  cases hc : c.isDigit with
  | true =>
    have hle := (Char.isDigit_iff_toNat.mp hc).2
    have hnine : '9'.toNat = 57 := rfl
    have hzero : '0'.toNat = 48 := rfl
    rw [isDigitIn, digitValue?_of_isDigit hc, Option.any_some, decide_eq_true_eq]
    omega
  | false =>
    rw [isDigitIn, digitValue?, hc, if_neg Bool.false_ne_true]
    -- a letter is worth ten at least
    split
    · simp
    · split <;> simp

theorem numberFrom_ten {ds : List Char} (hds : ∀ c ∈ ds, c.isDigit) :
    ∀ n, numberFrom 10 n ds = Nat.ofDigitChars 10 ds n := by
  induction ds with
  | nil => exact fun _ ↦ rfl
  | cons c ds ih =>
    intro n
    obtain ⟨hc, hds⟩ := List.forall_mem_cons.mp hds
    have hstep : n * 10 + (digitValue? c).getD 0 = 10 * n + (c.toNat - '0'.toNat) := by
      rw [digitValue?_of_isDigit hc, Option.getD_some, Nat.mul_comm]
    change numberFrom 10 (n * 10 + (digitValue? c).getD 0) ds = _
    rw [hstep, ih hds]
    rfl

theorem DigitRow.numberIn_eq {ds : List Char} {n : Nat} (h : DigitRow ds n) : numberIn 10 ds = n :=
  (numberFrom_ten h.isDigit 0).trans h.value_eq

theorem le_numberFrom {base : Nat} (hbase : 0 < base) (digits : List Char) :
    ∀ n, n ≤ numberFrom base n digits := by
  induction digits with
  | nil => exact Nat.le_refl
  | cons c cs ih =>
    intro n
    calc n ≤ n * base := Nat.le_mul_of_pos_right n hbase
      _ ≤ n * base + (digitValue? c).getD 0 := Nat.le_add_right _ _
      _ ≤ numberFrom base n (c :: cs) := ih _

/-- Digits are read unless the number that they make up is too large. -/
theorem magnitudeFrom_eq_ok_iff {base : Nat} (hbase : 0 < base) {digits : List Char} {k : Nat} :
    ∀ {n : Nat}, n < 18446744073709551616 → (magnitudeFrom base n digits = .ok k ↔
      (∀ c ∈ digits, isDigitIn base c) ∧ numberFrom base n digits = k ∧ k < 18446744073709551616) := by
  induction digits with
  | nil =>
    intro n hn
    rw [magnitudeFrom, Except.ok.injEq]
    refine ⟨?_, fun h ↦ h.2.1⟩
    rintro rfl
    exact ⟨List.forall_mem_nil _, rfl, hn⟩
  | cons c cs ih =>
    intro n hn
    rw [List.forall_mem_cons, magnitudeFrom, numberFrom, List.foldl_cons, ← numberFrom, isDigitIn]
    cases hd : digitValue? c with
    | none => simp
    | some d =>
      by_cases hle : base ≤ d
      · simp [hle, Nat.not_lt_of_le hle]
      by_cases hlarge : 18446744073709551616 ≤ n * base + d
      · have hgrow := le_numberFrom hbase cs (n * base + d)
        simp only [hle, hlarge, if_true, if_false, Option.getD_some]
        refine ⟨nofun, fun h ↦ ?_⟩
        omega
      · simp only [hle, hlarge, if_false, Option.getD_some, ih (Nat.lt_of_not_le hlarge)]
        simp [Nat.lt_of_not_le hle]

theorem magnitudeIn_eq_ok_iff {ds : List Char} {k : Nat} :
    magnitudeIn 10 ds = .ok k ↔ DigitRow ds k ∧ k < 18446744073709551616 := by
  unfold magnitudeIn
  cases ds with
  | nil =>
    rw [List.isEmpty_nil, if_pos rfl]
    exact ⟨nofun, fun h ↦ absurd rfl h.1.ne_nil⟩
  | cons c cs =>
    rw [List.isEmpty_cons, if_neg Bool.false_ne_true,
      magnitudeFrom_eq_ok_iff (by decide) (show 0 < 18446744073709551616 by decide)]
    simp only [isDigitIn_ten]
    constructor
    · rintro ⟨hds, hvalue, hlt⟩
      exact ⟨⟨List.cons_ne_nil c cs, hds, (numberFrom_ten hds 0).symm.trans hvalue⟩, hlt⟩
    · rintro ⟨h, hlt⟩
      exact ⟨h.isDigit, h.numberIn_eq, hlt⟩

/-- Digits are read as the number they make up, unless it is too large. -/
theorem magnitudeIn_cases (ds : List Char) :
    (∃ k, magnitudeIn 10 ds = .ok k ∧ DigitRow ds k) ∨
      ∃ e, magnitudeIn 10 ds = .error e ∧ ∀ k, DigitRow ds k → 18446744073709551616 ≤ k := by
  cases h : magnitudeIn 10 ds with
  | ok k => exact Or.inl ⟨k, rfl, (magnitudeIn_eq_ok_iff.mp h).1⟩
  | error e =>
    refine Or.inr ⟨e, rfl, fun k hk ↦ Nat.le_of_not_lt fun hlt ↦ ?_⟩
    cases h.symm.trans (magnitudeIn_eq_ok_iff.mpr ⟨hk, hlt⟩)

/-! ## Words -/

theorem numeral_minus_iff {ds : List Char} {n : Int} :
    Numeral ('-' :: ds) n ↔ ∃ k : Nat, DigitRow ds k ∧ n = -k := by
  constructor
  · intro h
    cases h with
    | plain h => cases h.isDigit '-' List.mem_cons_self
    | minus h => exact ⟨_, h, rfl⟩
  · rintro ⟨k, hk, rfl⟩
    exact .minus hk

theorem numeral_plus_iff {ds : List Char} {n : Int} :
    Numeral ('+' :: ds) n ↔ ∃ k : Nat, DigitRow ds k ∧ n = k := by
  constructor
  · intro h
    cases h with
    | plain h => cases h.isDigit '+' List.mem_cons_self
    | plus h => exact ⟨_, h, rfl⟩
  · rintro ⟨k, hk, rfl⟩
    exact .plus hk

theorem numeral_iff_of_unsigned {cs : List Char} {n : Int} (hminus : ∀ ds, cs ≠ '-' :: ds)
    (hplus : ∀ ds, cs ≠ '+' :: ds) : Numeral cs n ↔ ∃ k : Nat, DigitRow cs k ∧ n = k := by
  constructor
  · intro h
    cases h with
    | plain h => exact ⟨_, h, rfl⟩
    | plus => exact absurd rfl (hplus _)
    | minus => exact absurd rfl (hminus _)
  · rintro ⟨k, hk, rfl⟩
    exact .plain hk

theorem signedInt_minus_iff {ds : List Char} {n : Int} :
    signedInt (magnitudeIn 10) ('-' :: ds) = .ok n ↔ Numeral ('-' :: ds) n ∧ IsWord n := by
  rw [numeral_minus_iff, IsWord]
  rcases magnitudeIn_cases ds with ⟨k, hm, hk⟩ | ⟨e, hm, hlarge⟩
  · by_cases hle : k ≤ 9223372036854775808
    · simp only [signedInt, hm, if_true, if_pos hle, Except.ok.injEq]
      constructor
      · rintro rfl
        exact ⟨⟨k, hk, rfl⟩, by omega, by omega⟩
      · rintro ⟨⟨k', hk', rfl⟩, -⟩
        rw [hk.unique hk']
    · simp only [signedInt, hm, if_true, if_neg hle]
      refine ⟨nofun, ?_⟩
      rintro ⟨⟨k', hk', rfl⟩, hword⟩
      obtain rfl := hk.unique hk'
      omega
  · simp only [signedInt, hm]
    refine ⟨nofun, ?_⟩
    rintro ⟨⟨k, hk, rfl⟩, hword⟩
    have hle := hlarge k hk
    omega

theorem signedInt_plus_iff {ds : List Char} {n : Int} :
    signedInt (magnitudeIn 10) ('+' :: ds) = .ok n ↔ Numeral ('+' :: ds) n ∧ IsWord n := by
  rw [numeral_plus_iff, IsWord]
  rcases magnitudeIn_cases ds with ⟨k, hm, hk⟩ | ⟨e, hm, hlarge⟩
  · by_cases hlt : k < 9223372036854775808
    · simp only [signedInt, hm, if_neg Bool.false_ne_true, if_pos hlt, Except.ok.injEq]
      constructor
      · rintro rfl
        exact ⟨⟨k, hk, rfl⟩, by omega, by omega⟩
      · rintro ⟨⟨k', hk', rfl⟩, -⟩
        rw [hk.unique hk']
    · simp only [signedInt, hm, if_neg Bool.false_ne_true, if_neg hlt]
      refine ⟨nofun, ?_⟩
      rintro ⟨⟨k', hk', rfl⟩, hword⟩
      obtain rfl := hk.unique hk'
      omega
  · simp only [signedInt, hm]
    refine ⟨nofun, ?_⟩
    rintro ⟨⟨k, hk, rfl⟩, hword⟩
    have hle := hlarge k hk
    omega

/-- A text without a sign is read as with a `+` in front of it. -/
theorem signedInt_of_unsigned {cs : List Char} (hminus : ∀ ds, cs ≠ '-' :: ds)
    (hplus : ∀ ds, cs ≠ '+' :: ds) (unsigned : List Char → Except ScalarFault Nat) :
    signedInt unsigned cs = signedInt unsigned ('+' :: cs) := by
  unfold signedInt
  split
  rename_i negative digits h
  split at h
  · exact absurd rfl (hminus _)
  · exact absurd rfl (hplus _)
  · cases h
    rfl

/-- **A text is read as a number exactly if it is a numeral for a word.** -/
theorem decimalInt_eq_ok_iff {s : String} {n : Int} :
    decimalInt s = .ok n ↔ Numeral s.toList n ∧ IsWord n := by
  unfold decimalInt
  by_cases hminus : ∃ ds, s.toList = '-' :: ds
  · obtain ⟨ds, hs⟩ := hminus
    rw [hs]
    exact signedInt_minus_iff
  by_cases hplus : ∃ ds, s.toList = '+' :: ds
  · obtain ⟨ds, hs⟩ := hplus
    rw [hs]
    exact signedInt_plus_iff
  · replace hminus := not_exists.mp hminus
    replace hplus := not_exists.mp hplus
    rw [signedInt_of_unsigned hminus hplus, signedInt_plus_iff, numeral_plus_iff,
      numeral_iff_of_unsigned hminus hplus]

end TapeMachine.Text
