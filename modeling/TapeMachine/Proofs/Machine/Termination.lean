import Mathlib.Data.Set.Finite.Lattice
import TapeMachine.Proofs.Machine.Strays

/-!
# Only jumps back keep a machine going

There is one way for a machine not to end: to jump back for ever.  A tick that does not take the jump of a
`]` leaves the code pointer further up than it found it.  This is plain for an operator that moves on to the
next, and it holds of a `[` that jumps, no matter how far and where to, because its partner stands behind it
(`Sound.ip_le_of_execute`).

What the code pointer gains must end at the border that the machine may not cross, the end of the tape or
of the program.  So ticks without a jump back are bounded by the way that is left (`Runs.ip_add_le`).  It
makes no difference that a machine may rewrite the operators it comes to, since nothing is said of what the
tape holds: a byte counts at the moment it is executed.

Only the code pointer is looked at here.  The invariant that goes along with it is `Ahead`: the code pointer
does not come before the program, and the borders stay where they are.
-/

set_option autoImplicit false
namespace TapeMachine
namespace Machine

variable {σ : Type} [Channel σ]

/-! ## One tick -/

/-- The machine stands on a `]`, and the cell tells it to jump. -/
def JumpsBack (m : Machine) : Prop :=
  m.opcode = .again ∧ m.cell? ≠ some 0

/-- What a `[` jumps to stands behind it. -/
theorem Sound.lt_of_partner {m : Machine} (h : m.Sound) (hop : m.opcode = .loop) {target : Nat}
    (hfound : m.partner .forward = .found target) : m.ip < target := by
  obtain ⟨i, hip, hi⟩ := exists_ip_of_opcode (m := m) (by rw [hop]; exact nofun)
  have hbyte : m.tape.get? i = some Operator.loopByte := by
    obtain ⟨b, hb⟩ := Option.isSome_iff_exists.mp ((m.tape.isSome_get? i).mpr (by omega))
    rw [opcode, hip, hb, Option.getD_some] at hop
    rw [hb, eq_loopByte_of_decode hop]
  rw [partner_eq_scan (Or.inr h) (d := .forward) hop, hip] at hfound
  have hlt := ((Tape.leads_forward_iff h.isWord).mp ⟨hbyte, hfound⟩).lt
  omega

/-- **An operator that does not jump back does not take the code pointer back.** -/
theorem Sound.ip_le_of_execute {m m' : Machine} {c c' : σ} (h : m.Sound) (hback : ¬ m.JumpsBack)
    (hx : m.execute m.opcode c = ⟨m', c', .ok ()⟩) : m.ip ≤ m'.ip := by
  have hexecute := h.placed.execute_cases m.opcode c
  rw [hx] at hexecute
  rcases hexecute with ⟨hip, -⟩ | ⟨d, hop, hjump⟩
  · exact Int.le_of_eq (show m'.ip = m.ip from hip).symm
  · rw [jump] at hjump
    cases hp : m.partner d with
    | unmatched i =>
      rw [hp] at hjump
      cases hjump
    | offTape =>
      rw [hp] at hjump
      cases hjump
    | found target =>
      rw [hp] at hjump
      cases hjump
      cases d with
      | forward => exact Int.le_of_lt (h.lt_of_partner hop hp)
      | backward =>
        -- a `]` on a cell that is zero stays where it is
        have hcell : m.cell? = some 0 := not_not.mp fun hne ↦ hback ⟨hop, hne⟩
        have hstay := execute_bracket hcell .backward c
        rw [← hop, hx, if_neg (by decide)] at hstay
        have hip : (target : Int) = m.ip := congrArg (·.machine.ip) hstay
        exact Int.le_of_eq hip.symm

/-- **A tick that does not jump back takes the code pointer further.** -/
theorem Sound.ip_lt_of_tick {m m' : Machine} {c c' : σ} {stopped : Bool} (h : m.Sound)
    (hip : 1 ≤ m.ip) (hback : ¬ m.JumpsBack) (hr : m.isRunning = true)
    (ht : m.tick c = ⟨m', c', .ok stopped⟩) : m.ip < m'.ip := by
  rcases tick_ok_cases ht with ⟨hstopped, -⟩ | ⟨-, m₁, hx, rfl⟩
  · rw [hr] at hstopped
    cases hstopped
  · have hle := h.ip_le_of_execute hback hx
    -- whether it has jumped or not, the code pointer is on the tape, so that it does not wrap around
    have hlt : m₁.ip < m.tape.size := by
      have hmoved := (h.execute_opcode c).2
      rw [hx] at hmoved
      rcases hmoved with heq | ⟨target, heq, htarget⟩
      · exact (show m₁.ip = m.ip from heq) ▸ (ip_lt_of_isRunning hr).1
      · exact (show m₁.ip = target from heq) ▸ Int.ofNat_lt.mpr htarget
    have hword := h.isWord
    have hadvance : m₁.advance.ip = m₁.ip + 1 := by
      refine wrap_eq_self ?_
      simp only [IsWord] at *
      omega
    omega

/-! ## Several ticks -/

/-- The tick after the first `i` of a run takes the jump of a `]`. -/
def JumpsBackAt (m : Machine) (c : σ) (i : Nat) : Prop :=
  ∃ m₁ c₁ m₂ c₂, Runs i m c m₁ c₁ ∧ m₁.JumpsBack ∧ Runs 1 m₁ c₁ m₂ c₂

/-- A jump in the rest of a run is a jump in the run. -/
theorem Runs.jumpsBackAt {n i : Nat} {m m' : Machine} {c c' : σ} (h : Runs n m c m' c')
    (hback : m'.JumpsBackAt c' i) : m.JumpsBackAt c (n + i) := by
  obtain ⟨m₁, c₁, m₂, c₂, hruns, hjumps, hlast⟩ := hback
  exact ⟨m₁, c₁, m₂, c₂, h.trans hruns, hjumps, hlast⟩

/-- The borders that the code pointer may not cross are these, and it is not before the program. -/
structure Ahead (dataStart size : Nat) (m : Machine) : Prop where
  sound : m.Sound
  one_le : 1 ≤ m.ip
  dataStart_eq : m.tape.dataStart = dataStart
  size_eq : m.tape.size = size

section Ahead

variable {dataStart size n : Nat} {m m' : Machine} {c c' : σ}

theorem Ahead.tick (h : m.Ahead dataStart size) (c : σ) :
    (m.tick c).machine.Ahead dataStart size := by
  obtain ⟨i, -, htouched⟩ := exists_touched_tick h.sound.placed c
  refine ⟨h.sound.tick c, ?_, htouched.dataStart.trans h.dataStart_eq, htouched.size.trans h.size_eq⟩
  cases hr : m.isRunning with
  | false =>
    rw [tick_of_stopped hr]
    exact h.one_le
  | true =>
    have hwithin : m.Within := ⟨h.sound, h.one_le, Int.le_of_lt (ip_lt_of_isRunning hr).1⟩
    exact (hwithin.tick c).one_le

theorem Runs.ahead (h : Runs n m c m' c') (hm : m.Ahead dataStart size) :
    m'.Ahead dataStart size :=
  h.invariant (P := Ahead dataStart size) (fun _ c hm ↦ hm.tick c) hm

/-- **Every tick that does not jump back is at least one place gained.** -/
theorem Runs.ip_add_le (h : Runs n m c m' c') (hm : m.Ahead dataStart size)
    (hback : ∀ i < n, ¬ m.JumpsBackAt c i) : m.ip + n ≤ m'.ip := by
  induction h with
  | refl => simp
  | @tick n m m₁ m' c c₁ c' stopped hr ht hrest ih =>
    have hfirst : Runs 1 m c m₁ c₁ := .single hr ht
    have hlt : m.ip < m₁.ip := hm.sound.ip_lt_of_tick hm.one_le
      (fun hjumps ↦ hback 0 (Nat.succ_pos n) ⟨m, c, m₁, c₁, .refl, hjumps, hfirst⟩) hr ht
    have hle := ih (hfirst.ahead hm) fun i hi hjumps ↦
      hback (1 + i) (by omega) (hfirst.jumpsBackAt hjumps)
    omega

/-- So the way that is left bounds their number. -/
theorem Runs.ip_add_le_border (h : Runs n m c m' c') (hn : 1 ≤ n) (hm : m.Ahead dataStart size)
    (hback : ∀ i < n, ¬ m.JumpsBackAt c i) :
    m.ip + n ≤ size ∧ (m.options.extend ≤ 0 → m.ip + n ≤ dataStart) := by
  -- before the last tick the machine was still running
  obtain ⟨k, rfl⟩ : ∃ k, n = k + 1 := ⟨n - 1, by omega⟩
  obtain ⟨m₁, c₁, hfirst, hlast⟩ := h.split
  have hle := hfirst.ip_add_le hm fun i hi ↦ hback i (Nat.lt_succ_of_lt hi)
  cases hlast with
  | tick hr _ _ =>
    obtain ⟨hsize, hlevel⟩ := ip_lt_of_isRunning hr
    rw [(hfirst.ahead hm).size_eq] at hsize
    rw [(hfirst.ahead hm).dataStart_eq, hfirst.options] at hlevel
    refine ⟨by omega, fun he ↦ ?_⟩
    have hstart := hlevel he
    omega

/-- A run without jumps back is over as soon as the way to the border is. -/
theorem Ahead.exists_ends (hm : m.Ahead dataStart size) (hback : ∀ i, ¬ m.JumpsBackAt c i)
    (hn : (size : Int) ≤ m.ip + n ∨ (m.options.extend ≤ 0 ∧ (dataStart : Int) ≤ m.ip + n)) :
    ∃ k m' c' o, Ends k m c m' c' o ∧ k ≤ n ∧ (k = n → o = .ok ()) := by
  rcases runs_or_ends n m c with ⟨m₁, c₁, hruns, hr⟩ | hends
  · have hle := hruns.ip_add_le hm fun i _ ↦ hback i
    obtain ⟨hsize, hlevel⟩ := ip_lt_of_isRunning hr
    rw [(hruns.ahead hm).size_eq] at hsize
    rw [(hruns.ahead hm).dataStart_eq, hruns.options] at hlevel
    rcases hn with hn | ⟨he, hn⟩
    · omega
    · have hstart := hlevel he
      omega
  · exact hends

end Ahead

/-! ## Programs without a `]` -/

/-- At level zero a machine executes what stands in its program. -/
theorem Steady.mem_of_opcode_again {program : List UInt8} {options : Options} {m : Machine}
    (h : m.Steady program options) (he : options.extend = 0) (hip : 1 ≤ m.ip)
    (hr : m.isRunning = true) (hop : m.opcode = .again) : Operator.againByte ∈ program := by
  have hlt := (ip_lt_of_isRunning hr).2 (by rw [h.options_eq, he])
  obtain ⟨k, hk⟩ : ∃ k : Nat, m.ip = ((k + 1 : Nat) : Int) := ⟨(m.ip - 1).toNat, by omega⟩
  have hcode : k < m.tape.code.length := by
    rw [Tape.length_code]
    omega
  have hget := Tape.get?_of_code (List.getElem?_eq_getElem hcode)
  rw [opcode, hk, hget, Option.getD_some] at hop
  rw [← h.code, ← eq_againByte_of_decode hop]
  exact List.getElem_mem hcode

end Machine

open Machine

/-- **Only the jump of a `]` prolongs a run.**

* Take a sound machine with its code pointer behind the storage cell, at any level, whatever is on its tape
  and on any channel.  If it ticks `n` times and takes no jump back, its code pointer goes up with every
  tick, and `n` is at most the distance to the end of the tape, and at level zero to the end of the program.
* So a run in which finitely many jumps back are taken comes to an end.
* And at level zero a program without a `]` ends within as many ticks as it has bytes, the one that fails
  included if there is one, whatever it is given to read.

A sound machine has its data pointer on a data cell, a jump table that fits its program, if it has one, and
a tape whose length is a word. -/
theorem bounded_of_not_jumpsBackAt {σ : Type} [Channel σ] :
    (∀ {m m' : Machine} {c c' : σ} {n : Nat}, m.Sound → 1 ≤ m.ip → 1 ≤ n → Runs n m c m' c' →
      (∀ i < n, ¬ m.JumpsBackAt c i) →
        (∀ i < n, ∀ m₁ c₁ m₂ c₂, Runs i m c m₁ c₁ → Runs (i + 1) m c m₂ c₂ → m₁.ip < m₂.ip) ∧
        (n : Int) ≤ m.tape.size - m.ip ∧
        (m.options.extend = 0 → (n : Int) ≤ m.tape.dataStart - m.ip)) ∧
    (∀ {m : Machine} {c : σ}, m.Sound → 1 ≤ m.ip → {i | m.JumpsBackAt c i}.Finite →
      ∃ m' c' o, m.Returns c m' c' o ∧ o ≠ .offTape) ∧
    (∀ {program : List UInt8} {dataLength : Int} {options : Options} {m₀ : Machine} (c : σ),
      build program dataLength options = .ok m₀ → IsWord (1 + program.length + dataLength) →
      options.extend = 0 → Operator.againByte ∉ program →
        ∃ k m' c' o, Ends k m₀ c m' c' o ∧ o ≠ .offTape ∧ m'.ticks = k ∧ k ≤ program.length ∧
          (k = program.length → o = .ok ())) := by
  refine ⟨?_, ?_, ?_⟩
  · intro m m' c c' n hm hip hn hruns hback
    have hahead : m.Ahead m.tape.dataStart m.tape.size := ⟨hm, hip, rfl, rfl⟩
    obtain ⟨hsize, hstart⟩ := hruns.ip_add_le_border hn hahead hback
    refine ⟨fun i hi m₁ c₁ m₂ c₂ h₁ h₂ ↦ ?_, by omega, fun he ↦ ?_⟩
    · obtain ⟨m₃, c₃, h₃, hlast⟩ := h₂.split
      obtain ⟨rfl, rfl⟩ := h₃.unique h₁
      have hle := hlast.ip_add_le (h₃.ahead hahead) fun j hj hjumps ↦
        hback (i + j) (by omega) (h₃.jumpsBackAt hjumps)
      omega
    · have hle := hstart (Int.le_of_eq he)
      omega
  · intro m c hm hip hfinite
    have hahead : m.Ahead m.tape.dataStart m.tape.size := ⟨hm, hip, rfl, rfl⟩
    obtain ⟨last, hlast⟩ := hfinite.bddAbove
    -- once the last jump is over, the machine ends for want of another
    obtain ⟨k, m', c', o, hends⟩ : ∃ k m' c' o, Ends k m c m' c' o := by
      rcases runs_or_ends (last + 1) m c with ⟨m₁, c₁, hruns, -⟩ | ⟨k, m', c', o, hends, -⟩
      · have hnot : ∀ i, ¬ m₁.JumpsBackAt c₁ i := by
          intro i hi
          have hle := hlast (hruns.jumpsBackAt hi)
          omega
        have hone := (hruns.ahead hahead).one_le
        obtain ⟨k, m', c', o, hends, -⟩ :=
          (hruns.ahead hahead).exists_ends (n := m.tape.size) hnot (Or.inl (by omega))
        exact ⟨_, m', c', o, hruns.ends hends⟩
      · exact ⟨k, m', c', o, hends⟩
    exact ⟨m', c', o, hends.returns, hm.ends_ne_offTape hends⟩
  · intro program dataLength options m₀ c hb hsize he hnone
    obtain ⟨-, hd, rfl⟩ := build_eq_ok_iff.mp hb
    have hsteady := steady_fresh program hd hsize options
    have hahead : (fresh program dataLength options).Ahead (1 + program.length)
        (fresh program dataLength options).tape.size := ⟨hsteady.sound, Int.le_refl 1, rfl, rfl⟩
    have hnot : ∀ i, ¬ (fresh program dataLength options).JumpsBackAt c i := by
      rintro i ⟨m₁, c₁, m₂, c₂, hruns, hjumps, hnext⟩
      have hsteady₁ := hruns.invariant (P := Steady program options) (fun _ c h ↦ h.tick c) hsteady
      cases hnext with
      | tick hr _ _ =>
        exact hnone (hsteady₁.mem_of_opcode_again he (hruns.ahead hahead).one_le hr hjumps.1)
    obtain ⟨k, m', c', o, hends, hk, hlast⟩ := hahead.exists_ends (n := program.length) hnot
      (Or.inr ⟨Int.le_of_eq he, by simp [fresh]⟩)
    exact ⟨k, m', c', o, hends, hsteady.sound.ends_ne_offTape hends,
      hends.ticks.trans (Nat.zero_add k), hk, hlast⟩

/-- The program `+` at level one runs on through its data cell, and so uses up all of the way.  On the
`]` of `[@]` a machine takes one jump back, and ends.  And `[` has no `]`: its run is over with the tick that
fails. -/
theorem bounded_of_not_jumpsBackAt_sharp :
    let c : Option Console := none
    let m := fresh [0x2b] 1 { extend := 1 }
    let s : Machine := { (fresh [0x5b, 0x40, 0x5d] 1 { extend := 1 }).putCell 1 with ip := 3 }
    (m.Sound ∧ 1 ≤ m.ip ∧ (∃ m', Runs 2 m c m' c) ∧ (∀ i < 2, ¬ m.JumpsBackAt c i) ∧
      ((2 : Nat) : Int) = m.tape.size - m.ip ∧ ((2 : Nat) : Int) ≤ m.tape.size - m.ip) ∧
    (s.Sound ∧ 1 ≤ s.ip ∧ s.JumpsBackAt c 0 ∧ {i | s.JumpsBackAt c i}.Finite ∧
      ∃ m' c' o, s.Returns c m' c' o ∧ o ≠ .offTape) ∧
    ∃ m₀, build [0x5b] 1 { precompute := true } = .ok m₀ ∧
      ∃ k m' c' o, Ends k m₀ c m' c' o ∧ o ≠ .offTape ∧ m'.ticks = k ∧ k ≤ 1 ∧
        (k = 1 → o = .ok ()) := by
  intro c m s
  obtain ⟨hclimbs, hends, hprogram⟩ := bounded_of_not_jumpsBackAt (σ := Option Console)
  refine ⟨?_, ?_, ?_⟩
  · have hm : m.Sound := sound_fresh _ (by decide) (by decide) _
    let m₁ : Machine := { m with tape := m.tape.put 2 1, ip := 2, ticks := 1 }
    let m₂ : Machine := { m₁ with ip := 3, ticks := 2 }
    have hfirst : Runs 1 m c m₁ c := .single rfl rfl
    have hruns : Runs 2 m c m₂ c := hfirst.trans (.single rfl rfl)
    have hnot : ∀ i < 2, ¬ m.JumpsBackAt c i := by
      rintro i hi ⟨m', c', -, -, hruns', ⟨hop, -⟩, -⟩
      match i, hi with
      | 0, _ =>
        obtain ⟨rfl, -⟩ := hruns'.unique .refl
        cases hop
      | 1, _ =>
        obtain ⟨rfl, -⟩ := hruns'.unique hfirst
        cases hop
    obtain ⟨-, hle, -⟩ := hclimbs hm (Int.le_refl 1) (by decide) hruns hnot
    exact ⟨hm, Int.le_refl 1, ⟨m₂, hruns⟩, hnot, rfl, hle⟩
  · have hfresh : (fresh [0x5b, 0x40, 0x5d] 1 { extend := 1 }).Sound :=
      sound_fresh _ (by decide) (by decide) _
    have hs : s.Sound := ⟨hfresh.placed, hfresh.isWord, hfresh.linked⟩
    let s₁ : Machine := { s with ip := 2, ticks := 1 }
    let s₂ : Machine := { s with ip := 3, ticks := 2, halted := true }
    have hback : Runs 1 s c s₁ c := .single rfl rfl
    have hhalts : Runs 1 s₁ c s₂ c := .single rfl rfl
    have hjumps : s.JumpsBackAt c 0 := ⟨s, c, s₁, c, .refl, ⟨rfl, by decide⟩, hback⟩
    have hends₂ : Ends 2 s c s₂ c (.ok ()) := (hback.trans hhalts).ends (.stop rfl)
    -- no jump is taken after the end of the run
    have hfinite : {i | s.JumpsBackAt c i}.Finite := by
      refine (Set.finite_lt_nat 2).subset ?_
      rintro i ⟨m₁, c₁, m₂, c₂, hfirst, -, hlast⟩
      obtain ⟨j, hj, -⟩ := (hfirst.trans hlast).ends_of_ends hends₂
      show i < 2
      omega
    exact ⟨hs, by decide, hjumps, hfinite, hends hs (by decide) hfinite⟩
  · have hb : build [0x5b] 1 { precompute := true } = .ok (fresh [0x5b] 1 { precompute := true }) :=
      build_eq_ok_iff.mpr ⟨by decide, by decide, rfl⟩
    exact ⟨_, hb, hprogram c hb (by decide) rfl (by decide)⟩

end TapeMachine
