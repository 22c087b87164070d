import TapeMachine.Proofs.Machine.Bounds
import TapeMachine.Proofs.Machine.History

/-!
# Runs under a tick limit

The limit is looked at before an operator is executed, by a machine that is running, and nowhere else.  So
a limit cuts a run off, and makes no difference to it up to there.

A machine under a limit is compared with the same machine without one.  As long as it has counted fewer
ticks than it is allowed, a tick does the same on both (`tick_limitedTo`), and so does any number of ticks
that stays within the limit (`Runs.limitedTo`).  What is left is the end of a run, and there the order in
which a tick asks its questions matters (`Ends.limitedTo`).  A machine that has used up its ticks is refused
one more, so that a failure of the operator is not seen any more; but a machine that has stopped with its
last tick has stopped, since that is asked first.

There is no third case: a run of `n` ticks is not over, or it has ended on the way (`runs_or_ends`).
-/

set_option autoImplicit false
namespace TapeMachine
namespace Machine

variable {σ : Type}

/-- The same machine with another tick limit. -/
def limitedTo (m : Machine) (limit : Int) : Machine :=
  m.equipped { m.options with tickLimit := limit } m.jumps

/-- A limit is reached when that many ticks are counted. -/
theorem atTickLimit_limitedTo {m : Machine} {limit : Nat} (hpos : 0 < limit) :
    (m.limitedTo limit).atTickLimit = decide (limit ≤ m.ticks) := by
  have hint : (0 : Int) < limit := Int.natCast_pos.mpr hpos
  have hiff : (limit : Int) ≤ m.ticks ↔ limit ≤ m.ticks := Int.ofNat_le
  rw [atTickLimit]
  simp only [limitedTo, equipped, hint, hiff, decide_true, Bool.true_and]

variable [Channel σ]

/-! ## Ticks -/

/-- No tick changes the options. -/
theorem options_tick (m : Machine) (c : σ) : (m.tick c).machine.options = m.options := by
  have hx := (equipment_execute m.opcode m c).1
  rcases tick_cases m c with ⟨-, ht⟩ | ⟨-, -, ht⟩ | ⟨-, -, ht⟩
  · rw [ht]
  · rw [ht]
  · rw [ht]
    rcases Step.conclude_machine m.ip m.opcode (m.execute m.opcode c) with hm | hm
    · rw [hm, hx]
    · rw [hm]
      exact hx

/-- An operator does the same under any limit. -/
theorem execute_limitedTo (m : Machine) (op : Operator) (limit : Int) (c : σ) :
    (m.limitedTo limit).execute op c = ⟨(m.execute op c).machine.limitedTo limit,
      (m.execute op c).channel, (m.execute op c).outcome⟩ := by
  obtain ⟨hoptions, hjumps⟩ := equipment_execute op m c
  rw [limitedTo, limitedTo, hoptions, hjumps]
  exact execute_equipped (fun _ _ ↦ rfl) c

/-- **Below its limit, a machine does what it does without one.** -/
theorem tick_limitedTo {m m' : Machine} {c c' : σ} {o : Outcome Bool} {limit : Nat}
    (hopen : m.options.tickLimit ≤ 0) (hlt : m.ticks < limit) (h : m.tick c = ⟨m', c', o⟩) :
    (m.limitedTo limit).tick c = ⟨m'.limitedTo limit, c', o⟩ := by
  have hleft : (m.limitedTo limit).atTickLimit = false := by
    rw [atTickLimit_limitedTo (Nat.zero_lt_of_lt hlt)]
    exact decide_eq_false (Nat.not_le.mpr hlt)
  rcases tick_cases m c with ⟨hr, ht⟩ | ⟨-, hl, -⟩ | ⟨hr, -, ht⟩
  · rw [ht] at h
    cases h
    exact tick_of_stopped (m := m.limitedTo limit) hr c
  · rw [atTickLimit_of_nonpos hopen] at hl
    cases hl
  · rw [ht] at h
    have hx := m.execute_limitedTo m.opcode limit c
    rw [tick_of_running (m := m.limitedTo limit) hr hleft c]
    change ((m.limitedTo limit).execute m.opcode c).conclude m.ip m.opcode = _
    rw [hx]
    generalize m.execute m.opcode c = s at h
    obtain ⟨m₁, c₁, o₁⟩ := s
    cases o₁ with
    | ok | error | offTape =>
      cases h
      rfl

/-! ## Runs -/

/-- A run that ends is a number of ticks that succeed, and then an end. -/
theorem Ends.exists_runs {k : Nat} {m m' : Machine} {c c' : σ} {o : Outcome Unit}
    (h : Ends k m c m' c' o) : ∃ m₁ c₁, Runs k m c m₁ c₁ ∧ Ends 0 m₁ c₁ m' c' o := by
  induction h with
  | stop h => exact ⟨_, _, .refl, .stop h⟩
  | error h => exact ⟨_, _, .refl, .error h⟩
  | offTape h => exact ⟨_, _, .refl, .offTape h⟩
  | tick hr h _ ih =>
    obtain ⟨m₁, c₁, hruns, hends⟩ := ih
    exact ⟨m₁, c₁, .tick hr h hruns, hends⟩

/-- A run that is still going on after `n` ticks, or that has ended on the way.  If it took all of them, it
can only have ended because the machine has stopped. -/
theorem runs_or_ends (n : Nat) (m : Machine) (c : σ) :
    (∃ m₁ c₁, Runs n m c m₁ c₁ ∧ m₁.isRunning = true) ∨
      ∃ k m₁ c₁ o, Ends k m c m₁ c₁ o ∧ k ≤ n ∧ (k = n → o = .ok ()) := by
  induction n generalizing m c with
  | zero =>
    cases hr : m.isRunning with
    | true => exact Or.inl ⟨m, c, .refl, hr⟩
    | false => exact Or.inr ⟨0, m, c, .ok (), .stop hr, Nat.le_refl 0, fun _ ↦ rfl⟩
  | succ n ih =>
    cases hr : m.isRunning with
    | false => exact Or.inr ⟨0, m, c, .ok (), .stop hr, Nat.zero_le _, fun _ ↦ rfl⟩
    | true =>
      obtain ⟨⟨m', c', o⟩, ht⟩ : ∃ s, m.tick c = s := ⟨_, rfl⟩
      cases o with
      | ok stopped =>
        rcases ih m' c' with ⟨m₁, c₁, hruns, hr₁⟩ | ⟨k, m₁, c₁, o, hends, hk, hlast⟩
        · exact Or.inl ⟨m₁, c₁, .tick hr ht hruns, hr₁⟩
        · exact Or.inr ⟨k + 1, m₁, c₁, o, .tick hr ht hends, Nat.succ_le_succ hk,
            fun h ↦ hlast (Nat.succ.inj h)⟩
      | error e => exact Or.inr ⟨0, m', c', .error e, .error ht, Nat.zero_le _, nofun⟩
      | offTape => exact Or.inr ⟨0, m', c', .offTape, .offTape ht, Nat.zero_le _, nofun⟩

theorem Runs.options {n : Nat} {m m' : Machine} {c c' : σ} (h : Runs n m c m' c') :
    m'.options = m.options := by
  induction h with
  | refl => rfl
  | @tick _ m _ _ c _ _ _ _ ht _ ih =>
    have hoptions := m.options_tick c
    rw [ht] at hoptions
    exact ih.trans hoptions

/-- **Within the limit, ticks do what they do without one.** -/
theorem Runs.limitedTo {n : Nat} {m m' : Machine} {c c' : σ} {limit : Nat} (h : Runs n m c m' c')
    (hopen : m.options.tickLimit ≤ 0) (hle : m.ticks + n ≤ limit) :
    Runs n (m.limitedTo limit) c (m'.limitedTo limit) c' := by
  induction h with
  | refl => exact .refl
  | @tick n m m₁ _ c _ _ _ hr ht _ ih =>
    have hticks := ticks_of_tick hr ht
    have hoptions : m₁.options = m.options := (Runs.single hr ht).options
    refine .tick hr (tick_limitedTo hopen (by omega) ht) (ih ?_ (by omega))
    rw [hoptions]
    exact hopen

/-- **A run that does not exceed the limit ends as it does without one**, if it ends before the last tick
or because the machine has stopped. -/
theorem Ends.limitedTo {k : Nat} {m m' : Machine} {c c' : σ} {o : Outcome Unit} {limit : Nat}
    (h : Ends k m c m' c' o) (hopen : m.options.tickLimit ≤ 0) (hle : m.ticks + k ≤ limit)
    (hlast : m.ticks + k = limit → o = .ok ()) :
    Ends k (m.limitedTo limit) c (m'.limitedTo limit) c' o := by
  obtain ⟨m₁, c₁, hruns, hends⟩ := h.exists_runs
  have hticks := hruns.ticks
  have hopen₁ : m₁.options.tickLimit ≤ 0 := by
    rw [hruns.options]
    exact hopen
  have hlt : o ≠ .ok () → m₁.ticks < limit := by
    intro ho
    have hne := mt hlast ho
    omega
  have hends' : Ends 0 (m₁.limitedTo limit) c₁ (m'.limitedTo limit) c' o := by
    cases hends with
    | stop hr => exact .stop hr
    | error ht => exact .error (tick_limitedTo hopen₁ (hlt nofun) ht)
    | offTape ht => exact .offTape (tick_limitedTo hopen₁ (hlt nofun) ht)
  exact (hruns.limitedTo hopen hle).ends hends'

/-- A run that goes on after as many ticks as are allowed is cut off. -/
theorem Runs.ends_limitedTo {n : Nat} {m m' : Machine} {c c' : σ} {limit : Nat} (h : Runs n m c m' c')
    (hr : m'.isRunning = true) (hopen : m.options.tickLimit ≤ 0) (hpos : 0 < limit)
    (heq : m.ticks + n = limit) :
    Ends n (m.limitedTo limit) c (m'.limitedTo limit) c' (.error Condition.tickLimit) := by
  have hat : (m'.limitedTo limit).atTickLimit = true := by
    rw [atTickLimit_limitedTo hpos, h.ticks, heq]
    exact decide_eq_true (Nat.le_refl limit)
  have htick := tick_of_atTickLimit (m := m'.limitedTo limit) hr hat c'
  exact (h.limitedTo hopen (Nat.le_of_eq heq)).ends (.error htick)

/-- Without a limit, none is exceeded. -/
theorem Ends.ne_tickLimit {k : Nat} {m m' : Machine} {c c' : σ} {o : Outcome Unit}
    (h : Ends k m c m' c' o) (hopen : m.options.tickLimit ≤ 0) : o ≠ .error Condition.tickLimit := by
  rintro rfl
  obtain ⟨m₁, c₁, hruns, hends⟩ := h.exists_runs
  cases hends with
  | error ht =>
    obtain ⟨-, -, ⟨hl, -⟩ | ⟨-, cause, he, -⟩⟩ := tick_error_cases ht
    · rw [atTickLimit_of_nonpos (by rw [hruns.options]; exact hopen)] at hl
      cases hl
    · cases he

end Machine

open Machine

variable {σ : Type} [Channel σ]

/-- **A tick limit cuts a run off, and does nothing else.**  Take a machine without a limit, just built, and
the same machine with a limit of `limit` ticks, on any channel.

* With the limit, the run comes to an end after at most `limit` ticks that succeed.
* It fails for the limit exactly if without it the first `limit` ticks succeed and the machine is still
  running after them.  It then leaves what they leave, of the machine as of the channel.
* Otherwise, also if the machine stops with the last tick it is allowed, the run without the limit comes to
  an end, too, and both leave the same, with the same outcome.

Since the channel may be a recording, "the same channel" is also: the same calls.  The length of the tape is
taken to be a word. -/
theorem returns_limited {program : List UInt8} {dataLength : Int} {options : Options} {m : Machine}
    (hb : build program dataLength options = .ok m) (hopen : options.tickLimit ≤ 0)
    (hsize : IsWord (1 + program.length + dataLength)) {limit : Nat} (hpos : 0 < limit) (c : σ) :
    build program dataLength { options with tickLimit := limit } = .ok (m.limitedTo limit) ∧
      (∃ k mf cf o, k ≤ limit ∧ Ends k (m.limitedTo limit) c mf cf o ∧ o ≠ .offTape) ∧
      (∀ mf cf, (m.limitedTo limit).Returns c mf cf (.error Condition.tickLimit) ↔
        ∃ m₁, Runs limit m c m₁ cf ∧ m₁.isRunning = true ∧ m₁.ticks = limit ∧
          mf = m₁.limitedTo limit) ∧
      ((¬ ∃ m₁ c₁, Runs limit m c m₁ c₁ ∧ m₁.isRunning = true) →
        ∃ m₁ c₁ o, o ≠ .error Condition.tickLimit ∧ m.Returns c m₁ c₁ o ∧
          (m.limitedTo limit).Returns c (m₁.limitedTo limit) c₁ o) := by
  obtain ⟨he, hd, rfl⟩ := build_eq_ok_iff.mp hb
  have hsound : ((fresh program dataLength options).limitedTo limit).Sound :=
    sound_fresh program hd hsize { options with tickLimit := limit }
  have hcut : ∀ m₁ c₁, Runs limit (fresh program dataLength options) c m₁ c₁ →
      m₁.isRunning = true →
        Ends limit ((fresh program dataLength options).limitedTo limit) c (m₁.limitedTo limit) c₁
          (.error Condition.tickLimit) :=
    fun m₁ c₁ hruns hr ↦ hruns.ends_limitedTo hr hopen hpos (Nat.zero_add limit)
  refine ⟨build_eq_ok_iff.mpr ⟨he, hd, rfl⟩, ?_⟩
  rcases runs_or_ends limit (fresh program dataLength options) c with
    ⟨m₁, c₁, hruns, hr⟩ | ⟨k, m₁, c₁, o, hends, hk, hlast⟩
  · have hends := hcut m₁ c₁ hruns hr
    refine ⟨⟨limit, _, _, _, Nat.le_refl limit, hends, hsound.ends_ne_offTape hends⟩,
      fun mf cf ↦ ⟨fun h ↦ ?_, ?_⟩, fun hnot ↦ absurd ⟨m₁, c₁, hruns, hr⟩ hnot⟩
    · obtain ⟨rfl, rfl, -⟩ := h.unique hends.returns
      exact ⟨m₁, hruns, hr, hruns.ticks.trans (Nat.zero_add limit), rfl⟩
    · rintro ⟨m₂, hruns₂, hr₂, -, rfl⟩
      exact (hcut m₂ cf hruns₂ hr₂).returns
  · have hne := hends.ne_tickLimit hopen
    have hstart : (fresh program dataLength options).ticks + k = k := Nat.zero_add k
    have hends' : Ends k ((fresh program dataLength options).limitedTo limit) c (m₁.limitedTo limit) c₁ o :=
      hends.limitedTo hopen (by rwa [hstart]) (fun h ↦ hlast (by rwa [hstart] at h))
    refine ⟨⟨k, _, _, _, hk, hends', hsound.ends_ne_offTape hends'⟩, fun mf cf ↦ ⟨fun h ↦ ?_, ?_⟩,
      fun _ ↦ ⟨m₁, c₁, o, hne, hends.returns, hends'.returns⟩⟩
    · obtain ⟨-, -, ho⟩ := h.unique hends'.returns
      exact absurd ho.symm hne
    · rintro ⟨m₂, hruns₂, hr₂, -, -⟩
      obtain ⟨-, -, ho⟩ := (hcut m₂ cf hruns₂ hr₂).returns.unique hends'.returns
      exact absurd ho.symm hne

/-- The program `++` stops with its second tick.  A limit of two ticks is not noticed, and one of a single
tick cuts the run off. -/
theorem returns_limited_last_tick :
    let m := fresh [0x2b, 0x2b] 1 {}
    IsWord (1 + ([0x2b, 0x2b] : List UInt8).length + 1) ∧
      (∃ m₁ o, m.Returns (none : Option Console) m₁ none o ∧
        (m.limitedTo (2 : Nat)).Returns (none : Option Console) (m₁.limitedTo (2 : Nat)) none o ∧
          m₁.ticks = 2 ∧ o = .ok ()) ∧
      ∃ m₁, Runs 1 m (none : Option Console) m₁ none ∧ m₁.isRunning = true ∧ m₁.ticks = 1 := by
  intro m
  have hb : build [0x2b, 0x2b] 1 {} = .ok m := build_eq_ok_iff.mpr ⟨by decide, by decide, rfl⟩
  have hsize : IsWord (1 + ([0x2b, 0x2b] : List UInt8).length + 1) := by decide
  obtain ⟨m₂, htwo, hticks⟩ : ∃ m₂, (m.limitedTo (2 : Nat)).Returns (none : Option Console) m₂ none
      (.ok ()) ∧ m₂.ticks = 2 := ⟨_, ⟨2, rfl⟩, rfl⟩
  obtain ⟨m', hone⟩ : ∃ m', (m.limitedTo (1 : Nat)).Returns (none : Option Console) m' none
      (.error Condition.tickLimit) := ⟨_, 2, rfl⟩
  obtain ⟨-, -, hcut, hother⟩ := returns_limited hb (Int.le_refl 0) hsize Nat.two_pos
    (none : Option Console)
  obtain ⟨-, -, hcut', -⟩ := returns_limited hb (Int.le_refl 0) hsize Nat.one_pos
    (none : Option Console)
  refine ⟨hsize, ?_, ?_⟩
  · have hstops : ¬ ∃ m₁ c₁, Runs 2 m (none : Option Console) m₁ c₁ ∧ m₁.isRunning = true := by
      rintro ⟨m₁, c₁, hruns, hr⟩
      have hlimit := (hcut _ c₁).mpr ⟨m₁, hruns, hr, hruns.ticks, rfl⟩
      obtain ⟨-, -, ho⟩ := htwo.unique hlimit
      cases ho
    obtain ⟨m₁, c₁, o, -, hret, hret'⟩ := hother hstops
    obtain ⟨rfl, rfl, rfl⟩ := htwo.unique hret'
    exact ⟨m₁, .ok (), hret, hret', hticks, rfl⟩
  · obtain ⟨m₁, hruns, hr, hticks', -⟩ := (hcut' m' none).mp hone
    exact ⟨m₁, hruns, hr, hticks'⟩

end TapeMachine
