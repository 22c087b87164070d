import TapeMachine.Proofs.Tape.Brackets

/-!
# Scans ask for bytes of the tape only

A scan counts the bytes that are left to it before it sets out, and reads them with a default for bytes
that are not there.  Nothing in it says that the default is never used.  Here the same scans are written
as loops that know nothing beforehand: they test one end of the tape, the one they walk towards, ask for
the byte at their index, and give up where there is none (`walk`).

The two ways of scanning agree on every tape and from every starting point, on the tape or off it
(`askForward_eq` and `askBackward_eq`).  So when a scan says that it began off the tape, a byte outside
the tape was asked for, and when it says anything else, none was.  The last two lemmas say when a scan
begins on the tape, and that its result is an index of the tape.
-/

set_option autoImplicit false
namespace TapeMachine

open Operator (loopByte againByte)

namespace Tape

/-- Walks in steps of `step` until it is `past` the end of the tape or has found the `out` that closes no
`deeper` on the way.  Every byte is asked for, and a byte that is not there ends the walk. -/
def walk (t : Tape) (deeper out : UInt8) (step : Int) (past : Int → Bool) :
    (fuel depth : Nat) → (i : Int) → Scan
  | 0, _, i => .unmatched i
  | fuel + 1, depth, i =>
    if past i then .unmatched i
    else
      match t.get? i with
      | none => .offTape
      | some b =>
        if b = deeper then t.walk deeper out step past fuel (depth + 1) (i + step)
        else if b = out then
          if depth = 0 then .found i.toNat
          else t.walk deeper out step past fuel (depth - 1) (i + step)
        else t.walk deeper out step past fuel depth (i + step)

/-- Looks for the `]` that matches a `[` at `ip`, asking for every byte. -/
def askForward (t : Tape) (ip : Int) : Scan :=
  t.walk loopByte againByte 1 (fun i ↦ t.size ≤ i) (t.size + 1) 0 (wrap (ip + 1))

/-- Looks for the `[` that matches a `]` at `ip`, asking for every byte. -/
def askBackward (t : Tape) (ip : Int) : Scan :=
  t.walk againByte loopByte (-1) (fun i ↦ i < 0) (t.size + 1) 0 (wrap (ip - 1))

section Walk

variable {t : Tape} {deeper out : UInt8} {step : Int} {past : Int → Bool} {fuel depth : Nat} {i : Int}

theorem walk_of_past (h : past i = true) :
    t.walk deeper out step past fuel depth i = .unmatched i := by
  cases fuel with
  | zero => rfl
  | succ fuel => rw [walk, if_pos h]

theorem walk_of_missing (h : past i = false) (hb : t.get? i = none) :
    t.walk deeper out step past (fuel + 1) depth i = .offTape := by
  rw [walk, if_neg (by simp [h]), hb]

theorem walk_of_byte {b : UInt8} (h : past i = false) (hb : t.get? i = some b) :
    t.walk deeper out step past (fuel + 1) depth i =
      if b = deeper then t.walk deeper out step past fuel (depth + 1) (i + step)
      else if b = out then
        if depth = 0 then .found i.toNat
        else t.walk deeper out step past fuel (depth - 1) (i + step)
      else t.walk deeper out step past fuel depth (i + step) := by
  rw [walk, if_neg (by simp [h]), hb]

end Walk

/-- On the tape, a byte that is asked for is the one that is read with a default. -/
theorem get?_eq_getD (t : Tape) {i : Nat} (hi : i < t.size) : t.get? i = some (t.bytes.getD i 0) := by
  rw [get?_natCast, Array.getElem?_eq_getElem hi, Array.getD_eq_getD_getElem?,
    Array.getElem?_eq_getElem hi, Option.getD_some]

theorem walk_eq_seekClose (t : Tape) : ∀ (left depth i fuel : Nat), i + left = t.size → left < fuel →
    t.walk loopByte againByte 1 (fun i ↦ t.size ≤ i) fuel depth i =
      match t.seekClose left depth i with
      | some target => .found target
      | none => .unmatched t.size
  | 0, depth, i, fuel, h, _ => by
    rw [walk_of_past (by simp; omega), seekClose, show i = t.size by omega]
  | left + 1, depth, i, 0, _, hf => absurd hf (Nat.not_lt_zero _)
  | left + 1, depth, i, fuel + 1, h, hf => by
    have hnext : ∀ depth, t.walk loopByte againByte 1 (fun i ↦ t.size ≤ i) fuel depth ((i : Int) + 1) =
        match t.seekClose left depth (i + 1) with
        | some target => .found target
        | none => .unmatched t.size :=
      fun depth ↦ walk_eq_seekClose t left depth (i + 1) fuel (by omega) (by omega)
    rw [walk_of_byte (by simp; omega) (t.get?_eq_getD (by omega)), hnext, hnext, hnext]
    cases depth with
    | zero | succ depth =>
      rw [seekClose]
      split
      · rfl
      · split <;> rfl

theorem walk_eq_seekOpen (t : Tape) : ∀ (left depth fuel : Nat), left ≤ t.size → left < fuel →
    t.walk againByte loopByte (-1) (fun i ↦ i < 0) fuel depth ((left : Int) - 1) =
      match t.seekOpen left depth with
      | some target => .found target
      | none => .unmatched (-1)
  | 0, depth, fuel, _, _ => walk_of_past rfl
  | left + 1, depth, 0, _, hf => absurd hf (Nat.not_lt_zero _)
  | left + 1, depth, fuel + 1, h, hf => by
    have hnext : ∀ depth, t.walk againByte loopByte (-1) (fun i ↦ i < 0) fuel depth ((left : Int) + -1) =
        match t.seekOpen left depth with
        | some target => .found target
        | none => .unmatched (-1) :=
      fun depth ↦ walk_eq_seekOpen t left depth fuel (by omega) (by omega)
    rw [show ((left + 1 : Nat) : Int) - 1 = left by omega,
      walk_of_byte (by simp) (t.get?_eq_getD (by omega)), hnext, hnext, hnext]
    cases depth with
    | zero | succ depth =>
      rw [seekOpen]
      split
      · rfl
      · split <;> rfl

/-- **The forward scan is the loop that asks for every byte.** -/
theorem askForward_eq (t : Tape) (ip : Int) : t.askForward ip = t.scanForward ip := by
  rw [askForward, scanForward]
  generalize wrap (ip + 1) = start
  by_cases hneg : start < 0
  · rw [if_pos hneg]
    exact walk_of_missing (by simp; omega) (if_pos hneg)
  · rw [if_neg hneg]
    obtain ⟨i, rfl⟩ := Int.eq_ofNat_of_zero_le (Int.not_lt.mp hneg)
    rw [Int.toNat_natCast]
    by_cases hi : i ≤ t.size
    · rw [walk_eq_seekClose t (t.size - i) 0 i _ (by omega) (by omega)]
      cases t.seekClose (t.size - i) 0 i with
      | some target => rfl
      | none => exact congrArg Scan.unmatched (by omega)
    · rw [walk_of_past (by simp; omega), show t.size - i = 0 by omega, seekClose]
      exact congrArg Scan.unmatched (by omega)

/-- **The backward scan is the loop that asks for every byte.** -/
theorem askBackward_eq (t : Tape) (ip : Int) : t.askBackward ip = t.scanBackward ip := by
  rw [askBackward, scanBackward]
  generalize wrap (ip - 1) = start
  by_cases hoff : t.size ≤ start
  · rw [if_pos hoff]
    refine walk_of_missing (by simp; omega) ?_
    rw [← Option.not_isSome_iff_eq_none, isSome_get?]
    omega
  · rw [if_neg hoff]
    by_cases hneg : start < 0
    · rw [walk_of_past (by simpa using hneg), show (start + 1).toNat = 0 by omega, seekOpen]
      exact congrArg Scan.unmatched (by omega)
    · obtain ⟨i, rfl⟩ := Int.eq_ofNat_of_zero_le (Int.not_lt.mp hneg)
      have hwalk := walk_eq_seekOpen t (i + 1) 0 (t.size + 1) (by omega) (by omega)
      rw [show ((i + 1 : Nat) : Int) - 1 = i by omega] at hwalk
      rw [hwalk, show ((i : Int) + 1).toNat = i + 1 by omega]
      cases t.seekOpen (i + 1) 0 with
      | some target => rfl
      | none => exact congrArg Scan.unmatched (by omega)

/-- From an index of the tape, a scan forward stays on the tape and finds an index of it. -/
theorem scanForward_on_tape {t : Tape} (ht : IsWord t.size) {i : Nat} (hi : i < t.size) :
    t.scanForward i ≠ .offTape ∧ ∀ target, t.scanForward i = .found target → target < t.size := by
  rw [scanForward_eq ht hi]
  cases hs : seek loopByte againByte 0 (t.bytes.toList.drop (i + 1)) with
  | none => exact ⟨nofun, nofun⟩
  | some k =>
    refine ⟨nofun, ?_⟩
    rintro _ ⟨⟩
    have hlt := lt_length_of_seek loopByte_ne_againByte hs
    rw [List.length_drop, Array.length_toList] at hlt
    exact Nat.add_lt_of_lt_sub' hlt

/-- From an index of the tape, a scan backward stays on the tape and finds an index of it. -/
theorem scanBackward_on_tape {t : Tape} (ht : IsWord t.size) {i : Nat} (hi : i < t.size) :
    t.scanBackward i ≠ .offTape ∧ ∀ target, t.scanBackward i = .found target → target < t.size := by
  rw [scanBackward_eq ht hi]
  cases hs : seek againByte loopByte 0 (t.bytes.toList.take i).reverse with
  | none => exact ⟨nofun, nofun⟩
  | some k =>
    refine ⟨nofun, ?_⟩
    rintro _ ⟨⟩
    omega

end Tape
end TapeMachine
