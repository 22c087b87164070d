import TapeMachine.Machine.Run

/-!
# Ticks and runs

`tick` and `runFor` are functions that go through several cases and hand over several things at once.
This file puts them into the form that proofs use.

* A tick either finds the machine stopped, or finds it at its limit, or executes one operator and
  concludes (`tick_cases`).  `Step.conclude` is what happens after the operator was executed.
* `Returns` is a run without its clock: the machine comes to an end, some time, and this is what it
  leaves.  There is at most one such end (`Returns.unique`).
* `Ends k` is the same with the number of ticks that succeed on the way, `exists_ends_iff_returns`.  It is
  an inductive relation, and so the thing to do an induction on.
* `Runs n` is the beginning of a run, as far as it succeeds.  It can be put in front of a run that ends
  (`Runs.ends`) and taken off again (`Runs.ends_of_ends`).
-/

set_option autoImplicit false
namespace TapeMachine

variable {σ : Type}

/-! ## One tick -/

/-- What a tick makes of an operator that was executed at `ip`: it moves on, or it says where the operator
failed. -/
def Step.conclude (ip : Int) (op : Operator) (s : Step σ Unit) : Step σ Bool :=
  match s.outcome with
  | .ok () => ⟨s.machine.advance, s.channel, .ok (!s.machine.advance.isRunning)⟩
  | .error e => ⟨s.machine, s.channel, .error (.fault ip op e)⟩
  | .offTape => ⟨s.machine, s.channel, .offTape⟩

theorem Step.conclude_machine (ip : Int) (op : Operator) (s : Step σ Unit) :
    (s.conclude ip op).machine = s.machine ∨ (s.conclude ip op).machine = s.machine.advance := by
  obtain ⟨m, c, o⟩ := s
  cases o with
  | ok => exact Or.inr rfl
  | error e => exact Or.inl rfl
  | offTape => exact Or.inl rfl

namespace Machine

/-- Without a limit, there are always ticks left. -/
theorem atTickLimit_of_nonpos {m : Machine} (h : m.options.tickLimit ≤ 0) : m.atTickLimit = false := by
  rw [atTickLimit, decide_eq_false (Int.not_lt.mpr h), Bool.false_and]

variable [Channel σ]

theorem tick_of_stopped {m : Machine} (h : m.isRunning = false) (c : σ) :
    m.tick c = ⟨m, c, .ok true⟩ := by
  simp [tick, h]

theorem tick_of_atTickLimit {m : Machine} (h : m.isRunning = true) (hl : m.atTickLimit = true)
    (c : σ) : m.tick c = ⟨m, c, .error Condition.tickLimit⟩ := by
  simp [tick, h, hl]

theorem tick_of_running {m : Machine} (h : m.isRunning = true) (hl : m.atTickLimit = false) (c : σ) :
    m.tick c = (m.execute m.opcode c).conclude m.ip m.opcode := by
  simp only [tick, h, hl, Bool.not_true, Bool.false_eq_true, if_false, Step.conclude]
  generalize m.execute m.opcode c = s
  obtain ⟨m', c', o⟩ := s
  cases o <;> rfl

/-- The three things a tick can find. -/
theorem tick_cases (m : Machine) (c : σ) :
    (m.isRunning = false ∧ m.tick c = ⟨m, c, .ok true⟩) ∨
      (m.isRunning = true ∧ m.atTickLimit = true ∧ m.tick c = ⟨m, c, .error Condition.tickLimit⟩) ∨
      (m.isRunning = true ∧ m.atTickLimit = false ∧
        m.tick c = (m.execute m.opcode c).conclude m.ip m.opcode) := by
  cases hr : m.isRunning with
  | false => exact Or.inl ⟨rfl, tick_of_stopped hr c⟩
  | true =>
    cases hl : m.atTickLimit with
    | true => exact Or.inr (Or.inl ⟨rfl, rfl, tick_of_atTickLimit hr hl c⟩)
    | false => exact Or.inr (Or.inr ⟨rfl, rfl, tick_of_running hr hl c⟩)

/-- A tick that succeeds found the machine stopped, or executed an operator and moved on. -/
theorem tick_ok_cases {m m' : Machine} {c c' : σ} {stopped : Bool}
    (h : m.tick c = ⟨m', c', .ok stopped⟩) :
    (m.isRunning = false ∧ m' = m) ∨
      (m.isRunning = true ∧ ∃ m₁, m.execute m.opcode c = ⟨m₁, c', .ok ()⟩ ∧ m' = m₁.advance) := by
  rcases tick_cases m c with ⟨hr, ht⟩ | ⟨-, -, ht⟩ | ⟨hr, -, ht⟩
  · rw [ht] at h
    cases h
    exact Or.inl ⟨hr, rfl⟩
  · rw [ht] at h
    cases h
  · obtain ⟨⟨m₁, c₁, o⟩, hx⟩ : ∃ s, m.execute m.opcode c = s := ⟨_, rfl⟩
    rw [ht, hx] at h
    cases o with
    | ok =>
      cases h
      exact Or.inr ⟨hr, m₁, hx, rfl⟩
    | error e => cases h
    | offTape => cases h

/-- The flag a successful tick gives says whether the machine has stopped. -/
theorem isRunning_of_tick {m m' : Machine} {c c' : σ} {stopped : Bool}
    (h : m.tick c = ⟨m', c', .ok stopped⟩) : m'.isRunning = !stopped := by
  rcases tick_cases m c with ⟨hr, ht⟩ | ⟨-, -, ht⟩ | ⟨-, -, ht⟩
  · rw [ht] at h
    cases h
    simpa using hr
  · rw [ht] at h
    cases h
  · rw [ht] at h
    generalize m.execute m.opcode c = s at h
    obtain ⟨m₁, c₁, o⟩ := s
    cases o with
    | ok => cases h; simp
    | error e => cases h
    | offTape => cases h

/-! ## Runs -/

/-- What a tick preserves, a run preserves. -/
theorem runFor_invariant {P : Machine → Prop}
    (htick : ∀ (m : Machine) (c : σ), P m → P (m.tick c).machine)
    (n : Nat) (m : Machine) (c : σ) (h : P m) : P (m.runFor n c).machine := by
  induction n generalizing m c with
  | zero => exact h
  | succ n ih =>
    have hm := htick m c h
    rw [runFor]
    generalize m.tick c = s at hm
    obtain ⟨m', c', o⟩ := s
    cases o with
    | ok stopped =>
      cases stopped with
      | true => exact hm
      | false => exact ih m' c' hm
    | error e => exact hm
    | offTape => exact hm

/-- A run of `m` comes to an end, with outcome `o`, and leaves `m'` and `c'`. -/
def Returns (m : Machine) (c : σ) (m' : Machine) (c' : σ) (o : Outcome Unit) : Prop :=
  ∃ n, m.runFor n c = ⟨m', c', some o⟩

/-- **A run comes to one end only.** -/
theorem Returns.unique {m m₁ m₂ : Machine} {c c₁ c₂ : σ} {o₁ o₂ : Outcome Unit}
    (h₁ : m.Returns c m₁ c₁ o₁) (h₂ : m.Returns c m₂ c₂ o₂) : m₁ = m₂ ∧ c₁ = c₂ ∧ o₁ = o₂ := by
  obtain ⟨n₁, h₁⟩ := h₁
  obtain ⟨n₂, h₂⟩ := h₂
  -- a run that has ended is not changed by more time, so both have ended at `n₁ + n₂`
  have e₁ : m.runFor (n₁ + n₂) c = ⟨m₁, c₁, some o₁⟩ := by rw [runFor_add, h₁]
  have e₂ : m.runFor (n₁ + n₂) c = ⟨m₂, c₂, some o₂⟩ := by rw [Nat.add_comm, runFor_add, h₂]
  rw [e₁] at e₂
  cases e₂
  exact ⟨rfl, rfl, rfl⟩

/-! ## Runs, counted -/

/-- A run of `m` ends with outcome `o` after `k` ticks that succeed, and leaves `m'` and `c'`. -/
inductive Ends : Nat → Machine → σ → Machine → σ → Outcome Unit → Prop
  | stop {m : Machine} {c : σ} (h : m.isRunning = false) : Ends 0 m c m c (.ok ())
  | error {m m' : Machine} {c c' : σ} {e : Error} (h : m.tick c = ⟨m', c', .error e⟩) :
      Ends 0 m c m' c' (.error e)
  | offTape {m m' : Machine} {c c' : σ} (h : m.tick c = ⟨m', c', .offTape⟩) :
      Ends 0 m c m' c' .offTape
  | tick {k : Nat} {m m₁ m' : Machine} {c c₁ c' : σ} {o : Outcome Unit} {stopped : Bool}
      (hr : m.isRunning = true) (h : m.tick c = ⟨m₁, c₁, .ok stopped⟩)
      (hrest : Ends k m₁ c₁ m' c' o) : Ends (k + 1) m c m' c' o

theorem Ends.returns {k : Nat} {m m' : Machine} {c c' : σ} {o : Outcome Unit}
    (h : Ends k m c m' c' o) : m.Returns c m' c' o := by
  induction h with
  | stop h => exact ⟨1, by rw [runFor, tick_of_stopped h]⟩
  | error h => exact ⟨1, by rw [runFor, h]⟩
  | offTape h => exact ⟨1, by rw [runFor, h]⟩
  | @tick k m m₁ m' c c₁ c' o stopped hr h hrest ih =>
    obtain ⟨n, hn⟩ := ih
    cases stopped with
    | false => exact ⟨n + 1, by rw [runFor, h]; exact hn⟩
    | true =>
      -- the tick has already seen that the machine stops, so nothing comes after it
      refine ⟨1, ?_⟩
      have hstop : m₁.isRunning = false := isRunning_of_tick h
      rw [runFor, h]
      cases hrest with
      | stop => rfl
      | error h' => rw [tick_of_stopped hstop] at h'; cases h'
      | offTape h' => rw [tick_of_stopped hstop] at h'; cases h'
      | tick hr' _ _ => rw [hstop] at hr'; cases hr'

theorem exists_ends_of_runFor (n : Nat) {m m' : Machine} {c c' : σ} {o : Outcome Unit}
    (h : m.runFor n c = ⟨m', c', some o⟩) : ∃ k, Ends k m c m' c' o := by
  induction n generalizing m c with
  | zero => cases h
  | succ n ih =>
    rw [runFor] at h
    cases hr : m.isRunning with
    | false =>
      rw [tick_of_stopped hr] at h
      cases h
      exact ⟨0, .stop hr⟩
    | true =>
      obtain ⟨⟨m₁, c₁, o₁⟩, hs⟩ : ∃ s, m.tick c = s := ⟨_, rfl⟩
      rw [hs] at h
      cases o₁ with
      | ok stopped =>
        cases stopped with
        | true => cases h; exact ⟨1, .tick hr hs (.stop (isRunning_of_tick hs))⟩
        | false =>
          obtain ⟨k, hk⟩ := ih h
          exact ⟨k + 1, .tick hr hs hk⟩
      | error e => cases h; exact ⟨0, .error hs⟩
      | offTape => cases h; exact ⟨0, .offTape hs⟩

/-- Counting the ticks of a run is always possible. -/
theorem exists_ends_iff_returns {m m' : Machine} {c c' : σ} {o : Outcome Unit} :
    (∃ k, Ends k m c m' c' o) ↔ m.Returns c m' c' o :=
  ⟨fun ⟨_, h⟩ ↦ h.returns, fun ⟨n, h⟩ ↦ exists_ends_of_runFor n h⟩

/-! ## The beginning of a run -/

/-- From `m`, after `n` ticks that succeed, a run has come to `m'` and `c'`. -/
inductive Runs : Nat → Machine → σ → Machine → σ → Prop
  | refl {m : Machine} {c : σ} : Runs 0 m c m c
  | tick {n : Nat} {m m₁ m' : Machine} {c c₁ c' : σ} {stopped : Bool} (hr : m.isRunning = true)
      (h : m.tick c = ⟨m₁, c₁, .ok stopped⟩) (hrest : Runs n m₁ c₁ m' c') : Runs (n + 1) m c m' c'

namespace Runs

theorem single {m m' : Machine} {c c' : σ} {stopped : Bool} (hr : m.isRunning = true)
    (h : m.tick c = ⟨m', c', .ok stopped⟩) : Runs 1 m c m' c' :=
  .tick hr h .refl

theorem trans {n k : Nat} {m m₁ m₂ : Machine} {c c₁ c₂ : σ} (h : Runs n m c m₁ c₁)
    (h' : Runs k m₁ c₁ m₂ c₂) : Runs (n + k) m c m₂ c₂ := by
  induction h with
  | refl => simpa using h'
  | @tick n _ _ _ _ _ _ _ hr ht _ ih =>
    rw [Nat.add_right_comm]
    exact .tick hr ht (ih h')

/-- A run of two parts passes through where the first of them leads. -/
theorem split {n k : Nat} {m m' : Machine} {c c' : σ} (h : Runs (n + k) m c m' c') :
    ∃ m₁ c₁, Runs n m c m₁ c₁ ∧ Runs k m₁ c₁ m' c' := by
  induction n generalizing m c with
  | zero => exact ⟨m, c, .refl, by simpa using h⟩
  | succ n ih =>
    rw [Nat.succ_add] at h
    cases h with
    | tick hr ht hrest =>
      obtain ⟨m₁, c₁, hfirst, hlast⟩ := ih hrest
      exact ⟨m₁, c₁, .tick hr ht hfirst, hlast⟩

/-- **So many ticks lead to one machine only.** -/
theorem unique {n : Nat} {m m₁ m₂ : Machine} {c c₁ c₂ : σ} (h₁ : Runs n m c m₁ c₁)
    (h₂ : Runs n m c m₂ c₂) : m₁ = m₂ ∧ c₁ = c₂ := by
  induction h₁ with
  | refl =>
    cases h₂
    exact ⟨rfl, rfl⟩
  | tick _ ht _ ih =>
    cases h₂ with
    | tick _ ht₂ hrest =>
      rw [ht] at ht₂
      cases ht₂
      exact ih hrest

/-- What a tick preserves, any number of ticks preserve. -/
theorem invariant {P : Machine → Prop} (htick : ∀ (m : Machine) (c : σ), P m → P (m.tick c).machine)
    {n : Nat} {m m' : Machine} {c c' : σ} (h : Runs n m c m' c') (hm : P m) : P m' := by
  induction h with
  | refl => exact hm
  | @tick _ m _ _ c _ _ _ _ ht _ ih =>
    have hnext := htick m c hm
    rw [ht] at hnext
    exact ih hnext

/-- A run ends as the rest of it does. -/
theorem ends {n k : Nat} {m m₁ m' : Machine} {c c₁ c' : σ} {o : Outcome Unit}
    (h : Runs n m c m₁ c₁) (h' : Ends k m₁ c₁ m' c' o) : Ends (n + k) m c m' c' o := by
  induction h with
  | refl => simpa using h'
  | @tick n _ _ _ _ _ _ _ hr ht _ ih =>
    rw [Nat.add_right_comm]
    exact .tick hr ht (ih h')

/-- **The beginning of a run that ends can be cut off**, and what is left takes that much less time. -/
theorem ends_of_ends {n k : Nat} {m m₁ m' : Machine} {c c₁ c' : σ} {o : Outcome Unit}
    (h : Runs n m c m₁ c₁) (h' : Ends k m c m' c' o) : ∃ j, k = n + j ∧ Ends j m₁ c₁ m' c' o := by
  induction h generalizing k with
  | refl => exact ⟨k, by omega, h'⟩
  | tick hr ht _ ih =>
    cases h' with
    | stop hs => rw [hs] at hr; cases hr
    | error he => rw [ht] at he; cases he
    | offTape he => rw [ht] at he; cases he
    | tick _ hk hrest =>
      rw [ht] at hk
      cases hk
      obtain ⟨j, hj, hends⟩ := ih hrest
      exact ⟨j, by omega, hends⟩

theorem returns {n : Nat} {m m₁ m' : Machine} {c c₁ c' : σ} {o : Outcome Unit}
    (h : Runs n m c m₁ c₁) (h' : m₁.Returns c₁ m' c' o) : m.Returns c m' c' o := by
  obtain ⟨k, hk⟩ := exists_ends_iff_returns.mpr h'
  exact (h.ends hk).returns

end Runs
end Machine
end TapeMachine
