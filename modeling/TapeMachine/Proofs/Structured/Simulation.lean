import TapeMachine.Proofs.Structured.Tree

/-!
# The machine implements trees

A machine on a program that was written down from a tree does what the tree means.  This is shown in both
directions.

* Whatever a tree evaluates to, the machine gets there (`reaches_of_eval`).  The induction is on the
  evaluation.
* If the machine comes to an end, the tree has an evaluation (`exists_eval_of_ends`).  The tree alone is no
  measure here, since a loop is evaluated again and again, so the induction is on the number of ticks: every
  byte takes one.

Since a run has only one end, the two together say that ends and evaluations correspond.

What ties a tree to a place in a program is `Enters`.  A loop is entered from two places, from its `[` and
from its `]`, and it does not matter from which: both look at the cell under the data pointer and go to the
same two places, the one because it scans and the other because it does not.  So a run that comes back to
the `]` of a loop is about to evaluate that very loop.
-/

set_option autoImplicit false
namespace TapeMachine

open Operator (loopByte againByte decode)

variable {σ : Type}

/-! ## Single bytes -/

/-- At level zero only the eight core operators do something. -/
theorem decode_zero_eq_nop {b : UInt8} (hinc : b ≠ 0x2b) (hdec : b ≠ 0x2d) (hright : b ≠ 0x3e)
    (hleft : b ≠ 0x3c) (houtput : b ≠ 0x2e) (hinput : b ≠ 0x2c) (hloop : b ≠ loopByte)
    (hagain : b ≠ againByte) : decode 0 b = .nop := by
  unfold decode Operator.ofByte
  split <;> first | contradiction | rfl

/-- A byte does to the data cells what its operator does to a view. -/
theorem Memory.obey_eq_act [Channel σ] {b : UInt8} (hb : b ≠ loopByte ∧ b ≠ againByte) (v : View)
    (c : σ) : v.memory.obey b c =
      match v.act (decode 0 b) c with
      | (v', c', .ok ()) => .done v'.memory c'
      | (v', c', .error e) => .failed v'.memory c' e := by
  unfold obey
  split
  · rfl
  · rfl
  · rfl
  · rfl
  · rw [show decode 0 0x2e = .output from rfl, View.act]
    obtain ⟨⟨answer, c'⟩, hs⟩ : ∃ r, Channel.send v.memory.cell c = r := ⟨_, rfl⟩
    rw [hs]
    cases answer <;> rfl
  · rw [show decode 0 0x2c = .input from rfl, View.act]
    obtain ⟨⟨answer, c'⟩, hs⟩ : ∃ r, Channel.receive c = r := ⟨_, rfl⟩
    rw [hs]
    cases answer <;> rfl
  · rw [decode_zero_eq_nop ‹_› ‹_› ‹_› ‹_› ‹_› ‹_› hb.1 hb.2]
    rfl

/-! ## Places in a program -/

namespace Machine

/-- The data cells of a machine, and the position of its data pointer. -/
def Holds (m : Machine) (mem : Memory) : Prop :=
  m.tape.data = mem.cells ∧ m.ptr = ⟨mem.offset⟩

theorem Holds.shows {m : Machine} {mem : Memory} (h : m.Holds mem) :
    m.Shows ⟨m.tape.storage, mem, m.halted⟩ :=
  ⟨rfl, h.1, h.2, rfl⟩

theorem Shows.holds {m : Machine} {v : View} (h : m.Shows v) : m.Holds v.memory :=
  ⟨h.data, h.ptr⟩

theorem Holds.unique {m : Machine} {mem mem' : Memory} (h : m.Holds mem) (h' : m.Holds mem') :
    mem = mem' :=
  congrArg View.memory (h.shows.unique h'.shows)

/-- A machine at level zero stands between two parts of its program. -/
structure Stands (m : Machine) (before after : List UInt8) (mem : Memory) : Prop where
  bare : m.Bare
  extend : m.options.extend = 0
  code : m.tape.code = before ++ after
  ip : m.ip = ((before.length + 1 : Nat) : Int)
  holds : m.Holds mem

namespace Stands

variable {m : Machine} {before after : List UInt8} {mem : Memory}

theorem isRunning_iff (h : Stands m before after mem) : m.isRunning = true ↔ after ≠ [] := by
  have hstart := m.tape.dataStart_eq
  rw [h.code, List.length_append] at hstart
  rw [isRunning, h.extend, if_neg (by omega), decide_eq_true_iff, h.ip, ← List.length_pos_iff]
  omega

theorem opcode {b : UInt8} (h : Stands m before (b :: after) mem) : m.opcode = decode 0 b := by
  have hlist : m.tape.bytes.toList = (m.tape.storage :: before) ++ b :: (after ++ m.tape.data) := by
    rw [Tape.toList_bytes, h.code]
    simp
  have hget : m.tape.get? m.ip = some b := by
    rw [h.ip]
    exact Tape.get?_of_toList hlist
  rw [Machine.opcode, h.extend, hget, Option.getD_some]

theorem advance {b : UInt8} (h : Stands m before (b :: after) mem) :
    Stands m.advance (before ++ [b]) after mem := by
  refine ⟨⟨h.bare.tickLimit, h.bare.jumps, h.bare.isWord⟩, h.extend, ?_, ?_, h.holds⟩
  · exact h.code.trans (List.append_cons before b after)
  · have hsize := m.tape.size_eq
    rw [h.code, List.length_append, List.length_cons] at hsize
    rw [List.length_append, List.length_singleton, Machine.advance, h.ip]
    exact h.bare.wrap_succ (by omega)

/-- The machine at another place of the same program. -/
theorem goto {before' after' : List UInt8} (h : Stands m before after mem)
    (hcode : before ++ after = before' ++ after') {target : Nat} (ht : target = before'.length + 1) :
    Stands { m with ip := target } before' after' mem :=
  ⟨⟨h.bare.tickLimit, h.bare.jumps, h.bare.isWord⟩, h.extend, h.code.trans hcode,
    congrArg Nat.cast ht, h.holds⟩

theorem kept {m' : Machine} {mem' : Memory} (h : Stands m before after mem) (hk : Kept m m')
    (hmem : m'.Holds mem') : Stands m' before after mem' := by
  refine ⟨h.bare.kept hk, ?_, hk.code.trans h.code, hk.ip.trans h.ip, hmem⟩
  rw [hk.options]
  exact h.extend

end Stands

/-! ## Ticks -/

variable [Channel σ]

/-- A machine gets to a result: to the end of a piece of its program after `n` ticks, or to a failure of
the channel. -/
def Reaches (n : Nat) (m : Machine) (c : σ) (before after : List UInt8) : Result σ → Prop
  | .done mem c' => ∃ m', Runs n m c m' c' ∧ Stands m' before after mem
  | .failed mem c' e => ∃ m' ip op,
    m.Returns c m' c' (.error (.fault ip op e)) ∧ m'.Holds mem ∧ FailedBy σ op e

theorem Runs.reaches {n k : Nat} {m m₁ : Machine} {c c₁ : σ} {before after : List UInt8}
    {r : Result σ} (h : Runs n m c m₁ c₁) (h' : Reaches k m₁ c₁ before after r) :
    Reaches (n + k) m c before after r := by
  cases r with
  | done mem c' =>
    obtain ⟨m', hruns, hst⟩ := h'
    exact ⟨m', h.trans hruns, hst⟩
  | failed mem c' e =>
    obtain ⟨m', ip, op, hret, hrest⟩ := h'
    exact ⟨m', ip, op, h.returns hret, hrest⟩

namespace Stands

variable {m : Machine} {before after u : List UInt8} {mem : Memory}

/-- What a tick makes of a byte other than a bracket: it moves on, or it names the place and the operator that
the channel has failed. -/
theorem tick_eq {b : UInt8} (h : Stands m before (b :: after) mem)
    (hb : b ≠ loopByte ∧ b ≠ againByte) (c : σ) :
    ∃ m₁, Kept m m₁ ∧
      match mem.obey b c with
      | .done mem' c' => m₁.Holds mem' ∧ m.tick c = ⟨m₁.advance, c', .ok (!m₁.advance.isRunning)⟩
      | .failed mem' c' e =>
        m₁.Holds mem' ∧ FailedBy σ (decode 0 b) e ∧
          m.tick c = ⟨m₁, c', .error (.fault m.ip (decode 0 b) e)⟩ := by
  have hr : m.isRunning = true := h.isRunning_iff.mpr (List.cons_ne_nil b after)
  have hloop : m.opcode ≠ .loop := by
    rw [h.opcode]
    exact fun hop ↦ hb.1 (eq_loopByte_of_decode hop)
  have hagain : m.opcode ≠ .again := by
    rw [h.opcode]
    exact fun hop ↦ hb.2 (eq_againByte_of_decode hop)
  obtain ⟨m₁, hs, hk, ht⟩ := h.bare.tick_act h.holds.shows hr hloop hagain c
  refine ⟨m₁, hk, ?_⟩
  rw [Memory.obey_eq_act hb ⟨m.tape.storage, mem, m.halted⟩]
  rw [h.opcode] at hs ht
  obtain ⟨⟨v, c', o⟩, ha⟩ : ∃ r, View.act (decode 0 b) ⟨m.tape.storage, mem, m.halted⟩ c = r :=
    ⟨_, rfl⟩
  rw [ha] at hs ht ⊢
  cases o with
  | ok => exact ⟨hs.holds, ht⟩
  | error e => exact ⟨hs.holds, (View.failedBy_of_act ha).2, ht⟩

/-- A byte is obeyed in one tick. -/
theorem tick_obey {b : UInt8} (h : Stands m before (b :: after) mem)
    (hb : b ≠ loopByte ∧ b ≠ againByte) (c : σ) :
    Reaches 1 m c (before ++ [b]) after (mem.obey b c) := by
  have hr : m.isRunning = true := h.isRunning_iff.mpr (List.cons_ne_nil b after)
  obtain ⟨m₁, hk, ht⟩ := h.tick_eq hb c
  cases hobey : mem.obey b c with
  | done mem' c' =>
    rw [hobey] at ht
    exact ⟨m₁.advance, .single hr ht.2, (h.kept hk ht.1).advance⟩
  | failed mem' c' e =>
    rw [hobey] at ht
    obtain ⟨hmem, hfail, ht⟩ := ht
    exact ⟨m₁, m.ip, decode 0 b, (Ends.error ht).returns, hmem, hfail⟩

/-- A bracket that does not jump is passed over. -/
theorem tick_pass {b : UInt8} (h : Stands m before (b :: after) mem) {d : Direction}
    (hop : decode 0 b = d.operator) (ht : d.takes mem.cell = false) (c : σ) :
    ∃ m₁, Runs 1 m c m₁ c ∧ Stands m₁ (before ++ [b]) after mem := by
  have hr : m.isRunning = true := h.isRunning_iff.mpr (List.cons_ne_nil b after)
  have htick := h.bare.tick_pass h.holds.shows hr (h.opcode.trans hop) ht c
  exact ⟨m.advance, .single hr htick, h.advance⟩

/-- A `[` that jumps leads behind its `]`. -/
theorem tick_forward (h : Stands m before (loopByte :: (u ++ againByte :: after)) mem)
    (hu : Balanced loopByte againByte u) (hz : mem.cell = 0) (c : σ) :
    ∃ m₁, Runs 1 m c m₁ c ∧ Stands m₁ (before ++ loopByte :: u ++ [againByte]) after mem := by
  have hr : m.isRunning = true := h.isRunning_iff.mpr (List.cons_ne_nil _ _)
  have hpart : Partners m.tape.code before.length (before.length + 1 + u.length) :=
    ⟨before, u, after, h.code, hu, rfl, rfl⟩
  have hscan : Direction.forward.scan m.tape m.ip = .found (before.length + 1 + u.length + 1) := by
    rw [h.ip]
    exact hpart.of_code.scanForward h.bare.isWord
  have htick := h.bare.tick_jump (d := .forward) h.holds.shows hr h.opcode
    (by rw [hz]; rfl) c
  rw [hscan] at htick
  have hst : Stands { m with ip := ((before.length + 1 + u.length + 1 : Nat) : Int) }
      (before ++ loopByte :: u) (againByte :: after) mem :=
    h.goto (by simp) (by simp only [List.length_append, List.length_cons]; omega)
  exact ⟨_, .single hr htick, hst.advance⟩

/-- A `]` that jumps leads behind its `[`. -/
theorem tick_backward (h : Stands m (before ++ loopByte :: u) (againByte :: after) mem)
    (hu : Balanced loopByte againByte u) (hz : mem.cell ≠ 0) (c : σ) :
    ∃ m₁, Runs 1 m c m₁ c ∧ Stands m₁ (before ++ [loopByte]) (u ++ againByte :: after) mem := by
  have hr : m.isRunning = true := h.isRunning_iff.mpr (List.cons_ne_nil _ _)
  have hcode : (before ++ loopByte :: u) ++ againByte :: after
      = before ++ loopByte :: (u ++ againByte :: after) := by simp
  have hpart : Partners m.tape.code before.length (before.length + 1 + u.length) :=
    ⟨before, u, after, h.code.trans hcode, hu, rfl, rfl⟩
  have hlen : (before ++ loopByte :: u).length + 1 = before.length + 1 + u.length + 1 := by
    rw [List.length_append, List.length_cons]
    omega
  have hscan : Direction.backward.scan m.tape m.ip = .found (before.length + 1) := by
    rw [h.ip, hlen]
    exact hpart.of_code.scanBackward h.bare.isWord
  have htick := h.bare.tick_jump (d := .backward) h.holds.shows hr h.opcode
    (bne_iff_ne.mpr hz) c
  rw [hscan] at htick
  have hst : Stands { m with ip := ((before.length + 1 : Nat) : Int) }
      before (loopByte :: (u ++ againByte :: after)) mem := h.goto hcode rfl
  exact ⟨_, .single hr htick, hst.advance⟩

end Stands

/-! ## Trees in a program -/

/-- A machine is about to evaluate a tree that is written down between `before` and `after`.  It stands in
front of the tree or, if the tree begins with a loop, at the end of the body of that loop. -/
inductive Enters (m : Machine) (before after : List UInt8) (mem : Memory) : Tree → Prop
  | front {t : Tree} (h : Stands m before (t.flatten ++ after) mem) : Enters m before after mem t
  | back {body rest : Tree} (h : Stands m (before ++ loopByte :: body.flatten)
      (againByte :: (rest.flatten ++ after)) mem) : Enters m before after mem (.loop body rest)

namespace Enters

variable {m : Machine} {before after : List UInt8} {mem : Memory} {body rest : Tree}

/-- From both of its brackets a loop is left when the cell is zero. -/
theorem leave (h : Enters m before after mem (.loop body rest)) (hz : mem.cell = 0) (c : σ) :
    ∃ m₁, Runs 1 m c m₁ c ∧
      Enters m₁ (before ++ loopByte :: body.flatten ++ [againByte]) after mem rest := by
  cases h with
  | front h =>
    rw [Tree.flatten, List.cons_append, List.append_assoc, List.cons_append] at h
    obtain ⟨m₁, hrun, hst⟩ := h.tick_forward body.balanced_flatten hz c
    exact ⟨m₁, hrun, .front hst⟩
  | back h =>
    obtain ⟨m₁, hrun, hst⟩ := h.tick_pass (d := .backward) rfl (by rw [hz]; rfl) c
    exact ⟨m₁, hrun, .front hst⟩

/-- From both of its brackets a loop is repeated when the cell is not zero. -/
theorem enter (h : Enters m before after mem (.loop body rest)) (hz : mem.cell ≠ 0) (c : σ) :
    ∃ m₁, Runs 1 m c m₁ c ∧
      Enters m₁ (before ++ [loopByte]) (againByte :: (rest.flatten ++ after)) mem body := by
  cases h with
  | front h =>
    rw [Tree.flatten, List.cons_append, List.append_assoc, List.cons_append] at h
    obtain ⟨m₁, hrun, hst⟩ := h.tick_pass (d := .forward) rfl (beq_eq_false_iff_ne.mpr hz) c
    exact ⟨m₁, hrun, .front hst⟩
  | back h =>
    obtain ⟨m₁, hrun, hst⟩ := h.tick_backward body.balanced_flatten hz c
    exact ⟨m₁, hrun, .front hst⟩

theorem byte {b : UInt8} {plain : b ≠ loopByte ∧ b ≠ againByte}
    (h : Enters m before after mem (.byte b plain rest)) (c : σ) :
    Reaches 1 m c (before ++ [b]) (rest.flatten ++ after) (mem.obey b c) := by
  cases h with
  | front h => exact h.tick_obey plain c

/-- The end of the body is the other place where a loop begins. -/
theorem of_body (h : Stands m (before ++ [loopByte] ++ body.flatten)
    (againByte :: (rest.flatten ++ after)) mem) : Enters m before after mem (.loop body rest) := by
  rw [List.append_assoc] at h
  exact .back h

end Enters

/-! ## Both directions -/

/-- **The machine gets to whatever a tree evaluates to.** -/
theorem reaches_of_eval {t : Tree} {mem : Memory} {c : σ} {r : Result σ} (h : t.Eval mem c r) :
    ∀ {m : Machine} {before after : List UInt8}, Enters m before after mem t →
      ∃ n, Reaches n m c (before ++ t.flatten) after r := by
  induction h with
  | nil =>
    intro m before after hm
    cases hm with
    | front hst =>
      refine ⟨0, m, .refl, ?_⟩
      rw [Tree.flatten, List.append_nil]
      exact hst
  | @byte b plain rest mem mem₁ c c₁ r hb _ ih =>
    intro m before after hm
    have hreach := hm.byte c
    rw [hb] at hreach
    obtain ⟨m₁, hrun, hst⟩ := hreach
    obtain ⟨n, hn⟩ := ih (.front hst)
    rw [List.append_assoc] at hn
    exact ⟨1 + n, hrun.reaches hn⟩
  | @byteFailed b plain rest mem mem₁ c c₁ e hb =>
    intro m before after hm
    have hreach := hm.byte c
    rw [hb] at hreach
    exact ⟨1, hreach⟩
  | @loopDone body rest mem c r hz _ ih =>
    intro m before after hm
    obtain ⟨m₁, hrun, hm₁⟩ := hm.leave hz c
    obtain ⟨n, hn⟩ := ih hm₁
    refine ⟨1 + n, hrun.reaches ?_⟩
    simpa [Tree.flatten] using hn
  | @loopAgain body rest mem mem₁ c c₁ r hz _ _ ihbody ihagain =>
    intro m before after hm
    obtain ⟨m₁, hrun, hm₁⟩ := hm.enter hz c
    obtain ⟨n, m₂, hrun₂, hst₂⟩ := ihbody hm₁
    obtain ⟨k, hk⟩ := ihagain (.of_body hst₂)
    exact ⟨_, (hrun.trans hrun₂).reaches hk⟩
  | @loopFailed body rest mem mem₁ c c₁ e hz _ ih =>
    intro m before after hm
    obtain ⟨m₁, hrun, hm₁⟩ := hm.enter hz c
    obtain ⟨n, hn⟩ := ih hm₁
    exact ⟨1 + n, hrun.reaches hn⟩

/-- **If the machine comes to an end, the tree has an evaluation.** -/
theorem exists_eval_of_ends (k : Nat) : ∀ {t : Tree} {mem : Memory} {m m' : Machine} {c c' : σ}
    {o : Outcome Unit} {before after : List UInt8}, Ends k m c m' c' o →
      Enters m before after mem t → ∃ r, t.Eval mem c r := by
  induction k using Nat.strongRecOn with
  | ind k ih =>
    intro t mem m m' c c' o before after hends hm
    cases t with
    | nil => exact ⟨_, .nil⟩
    | byte b plain rest =>
      have hreach := hm.byte c
      cases hb : mem.obey b c with
      | failed mem₁ c₁ e => exact ⟨_, .byteFailed hb⟩
      | done mem₁ c₁ =>
        rw [hb] at hreach
        obtain ⟨m₁, hrun, hst⟩ := hreach
        obtain ⟨j, hj, hends₁⟩ := hrun.ends_of_ends hends
        obtain ⟨r, hr⟩ := ih j (by omega) hends₁ (.front hst)
        exact ⟨r, .byte hb hr⟩
    | loop body rest =>
      by_cases hz : mem.cell = 0
      · obtain ⟨m₁, hrun, hm₁⟩ := hm.leave hz c
        obtain ⟨j, hj, hends₁⟩ := hrun.ends_of_ends hends
        obtain ⟨r, hr⟩ := ih j (by omega) hends₁ hm₁
        exact ⟨r, .loopDone hz hr⟩
      · obtain ⟨m₁, hrun, hm₁⟩ := hm.enter hz c
        obtain ⟨j, hj, hends₁⟩ := hrun.ends_of_ends hends
        obtain ⟨r, hbody⟩ := ih j (by omega) hends₁ hm₁
        cases r with
        | failed mem₁ c₁ e => exact ⟨_, .loopFailed hz hbody⟩
        | done mem₁ c₁ =>
          -- what is left of the run after the body is what evaluates the loop again
          obtain ⟨n, m₂, hrun₂, hst₂⟩ := reaches_of_eval hbody hm₁
          obtain ⟨i, hi, hends₂⟩ := hrun₂.ends_of_ends hends₁
          obtain ⟨r, hagain⟩ := ih i (by omega) hends₂ (.of_body hst₂)
          exact ⟨r, .loopAgain hz hbody hagain⟩

/-! ## Whole programs -/

section Whole

variable {t : Tree} {m : Machine} {mem mem' : Memory} {c c' : σ}

/-- A run to the end of the whole program succeeds, also for the machine with its jump table. -/
theorem Stands.exists_returns {n : Nat} {m₁ : Machine} {before : List UInt8} (hs : m.Sound)
    (hrun : Runs n m.plain c m₁ c') (hst : Stands m₁ before [] mem) :
    ∃ m', m.Returns c m' c' (.ok ()) ∧ m'.plain = m₁ := by
  have hstop : m₁.isRunning = false := by
    rw [← Bool.not_eq_true, hst.isRunning_iff]
    simp
  exact (returns_plain_iff hs).mp (hrun.returns (Ends.stop hstop).returns)

/-- An evaluation to the end of the whole program is a run that succeeds. -/
theorem returns_of_eval_done (hs : m.Sound) (hm : Enters m.plain [] [] mem t)
    (h : t.Eval mem c (.done mem' c')) : ∃ m', m.Returns c m' c' (.ok ()) ∧ m'.Holds mem' := by
  obtain ⟨n, m₁, hrun, hst⟩ := reaches_of_eval h hm
  obtain ⟨m', hret, rfl⟩ := hst.exists_returns hs hrun
  exact ⟨m', hret, hst.holds⟩

/-- An evaluation that is stopped by the channel is a run that ends with a fault. -/
theorem returns_of_eval_failed {e : Error} (hs : m.Sound) (hm : Enters m.plain [] [] mem t)
    (h : t.Eval mem c (.failed mem' c' e)) : ∃ m' ip op,
      m.Returns c m' c' (.error (.fault ip op e)) ∧ m'.Holds mem' ∧ FailedBy σ op e := by
  obtain ⟨-, m₁, ip, op, hret₁, hmem, hfail⟩ := reaches_of_eval h hm
  obtain ⟨m', hret, rfl⟩ := (returns_plain_iff hs).mp hret₁
  exact ⟨m', ip, op, hret, hmem, hfail⟩

/-- **Every end of a run is the result of an evaluation.** -/
theorem eval_of_returns {m' : Machine} {o : Outcome Unit} (hs : m.Sound)
    (hm : Enters m.plain [] [] mem t) (h : m.Returns c m' c' o) :
    (∃ mem', o = .ok () ∧ m'.Holds mem' ∧ t.Eval mem c (.done mem' c')) ∨
      ∃ mem' ip op e, o = .error (.fault ip op e) ∧ m'.Holds mem' ∧ FailedBy σ op e ∧
        t.Eval mem c (.failed mem' c' e) := by
  obtain ⟨k, hends⟩ := exists_ends_iff_returns.mpr ((returns_plain_iff hs).mpr ⟨m', h, rfl⟩)
  obtain ⟨r, hr⟩ := exists_eval_of_ends k hends hm
  cases r with
  | done mem₁ c₁ =>
    obtain ⟨m₁, hret, hmem⟩ := returns_of_eval_done hs hm hr
    obtain ⟨rfl, rfl, rfl⟩ := h.unique hret
    exact Or.inl ⟨mem₁, rfl, hmem, hr⟩
  | failed mem₁ c₁ e =>
    obtain ⟨m₁, ip, op, hret, hmem, hfail⟩ := returns_of_eval_failed hs hm hr
    obtain ⟨rfl, rfl, rfl⟩ := h.unique hret
    exact Or.inr ⟨mem₁, ip, op, e, rfl, hmem, hfail, hr⟩

theorem returns_ok_iff_eval (hs : m.Sound) (hm : Enters m.plain [] [] mem t) :
    (∃ m', m.Returns c m' c' (.ok ()) ∧ m'.Holds mem') ↔ t.Eval mem c (.done mem' c') := by
  constructor
  · rintro ⟨m', hret, hmem⟩
    rcases eval_of_returns hs hm hret with ⟨mem₁, -, hmem₁, heval⟩ | ⟨_, _, _, _, ho, -⟩
    · rw [hmem.unique hmem₁]
      exact heval
    · cases ho
  · exact returns_of_eval_done hs hm

theorem returns_fault_iff_eval {e : Error} (hs : m.Sound) (hm : Enters m.plain [] [] mem t) :
    (∃ m' ip op, m.Returns c m' c' (.error (.fault ip op e)) ∧ m'.Holds mem') ↔
      t.Eval mem c (.failed mem' c' e) := by
  constructor
  · rintro ⟨m', ip, op, hret, hmem⟩
    rcases eval_of_returns hs hm hret with ⟨_, ho, -⟩ | ⟨mem₁, _, _, _, ho, hmem₁, -, heval⟩
    · cases ho
    · cases ho
      rw [hmem.unique hmem₁]
      exact heval
  · intro h
    obtain ⟨m', ip, op, hret, hmem, -⟩ := returns_of_eval_failed hs hm h
    exact ⟨m', ip, op, hret, hmem⟩

end Whole

/-- A machine that was just built stands in front of its program. -/
theorem stands_fresh (program : List UInt8) {dataLength : Int} (hd : 1 ≤ dataLength)
    (hsize : IsWord (1 + program.length + dataLength)) (options : Options)
    (hextend : options.extend = 0) (hlimit : options.tickLimit ≤ 0) :
    Stands (fresh program dataLength options).plain [] program (Memory.blank hd) :=
  ⟨⟨hlimit, rfl, (sound_fresh program hd hsize options).isWord⟩, hextend, Tape.code_ofProgram _ _,
    rfl, Tape.data_ofProgram _ _, rfl⟩

/-- A machine that was just built on a tree is about to evaluate it. -/
theorem enters_fresh (t : Tree) {dataLength : Int} (hd : 1 ≤ dataLength)
    (hsize : IsWord (1 + t.flatten.length + dataLength)) (options : Options)
    (hextend : options.extend = 0) (hlimit : options.tickLimit ≤ 0) :
    Enters (fresh t.flatten dataLength options).plain [] [] (Memory.blank hd) t := by
  refine .front ?_
  rw [List.append_nil]
  exact stands_fresh t.flatten hd hsize options hextend hlimit

end Machine

open Machine

variable [Channel σ]

/-- **The machine implements structured programs.**  Of a machine that was built, with or without a jump
table, on a program written down from a tree, at level zero and without a limit to its ticks, and on a tape
whose length is a word:

* its run succeeds, with these data cells and this channel, exactly if the tree evaluates to them;
* its run ends with a fault of this cause exactly if the tree is stopped by a failure of the channel with
  this cause;
* its run ends in no other way.  In particular a bracket never lacks its partner: that cause is only ever
  seen if the channel itself gives it. -/
theorem returns_flatten_iff_eval (t : Tree) {dataLength tickLimit : Int} (hd : 1 ≤ dataLength)
    (hsize : IsWord (1 + t.flatten.length + dataLength)) (precompute : Bool)
    (hlimit : tickLimit ≤ 0) (c : σ) :
    ∃ m, build t.flatten dataLength ⟨0, precompute, tickLimit⟩ = .ok m ∧
      (∀ mem c', (∃ m', m.Returns (Recording.start c) m' c' (.ok ()) ∧ m'.Holds mem) ↔
        t.Eval (Memory.blank hd) (Recording.start c) (.done mem c')) ∧
      (∀ mem c' e, (∃ m' ip op, m.Returns (Recording.start c) m' c' (.error (.fault ip op e)) ∧
          m'.Holds mem) ↔
        t.Eval (Memory.blank hd) (Recording.start c) (.failed mem c' e)) ∧
      (∀ m' c' o, m.Returns (Recording.start c) m' c' o →
        o = .ok () ∨ ∃ ip op e, o = .error (.fault ip op e) ∧ FailedBy σ op e) ∧
      ((∀ op, ¬FailedBy σ op Condition.bracketUnmatched) → ∀ m' c' ip op,
        ¬m.Returns (Recording.start c) m' c' (.error (.fault ip op Condition.bracketUnmatched))) := by
  have hs := sound_fresh t.flatten hd hsize ⟨0, precompute, tickLimit⟩
  have hm := enters_fresh t hd hsize ⟨0, precompute, tickLimit⟩ rfl hlimit
  have hend : ∀ m' c' o, (fresh t.flatten dataLength ⟨0, precompute, tickLimit⟩).Returns
      (Recording.start c) m' c' o →
        o = .ok () ∨ ∃ ip op e, o = .error (.fault ip op e) ∧ FailedBy σ op e := by
    intro m' c' o hret
    rcases eval_of_returns hs hm hret with ⟨_, ho, -⟩ | ⟨_, ip, op, e, ho, -, hfail, -⟩
    · exact Or.inl ho
    · exact Or.inr ⟨ip, op, e, ho, hfail.of_recording⟩
  refine ⟨_, build_eq_ok_iff.mpr ⟨Int.le_refl 0, hd, rfl⟩, fun _ _ ↦ returns_ok_iff_eval hs hm,
    fun _ _ _ ↦ returns_fault_iff_eval hs hm, hend, ?_⟩
  intro hchannel m' c' ip op hret
  rcases hend _ _ _ hret with ho | ⟨ip', op', e, ho, hfail⟩
  · cases ho
  · cases ho
    exact hchannel op hfail

/-- The program `+[>]` sets a cell and comes to its end on the next one. -/
theorem returns_flatten_iff_eval_next :
    ∃ (hd : (1 : Int) ≤ 2) (m m' : Machine) (c' : Recording (Option Console)),
      build [0x2b, 0x5b, 0x3e, 0x5d] 2 ⟨0, true, 0⟩ = .ok m ∧
      m.Returns (Recording.start none) m' c' (.ok ()) ∧
      m'.Holds ((Memory.blank hd).write 1).right := by
  have hd : (1 : Int) ≤ 2 := by decide
  let t : Tree := .byte 0x2b (by decide) (.loop (.byte 0x3e (by decide) .nil) .nil)
  have heval : t.Eval (Memory.blank hd) (Recording.start (none : Option Console))
      (.done ((Memory.blank hd).write 1).right (Recording.start none)) :=
    .byte rfl (.loopAgain (show (1 : UInt8) ≠ 0 by decide) (.byte rfl .nil) (.loopDone rfl .nil))
  obtain ⟨m, hm, hok, -⟩ := returns_flatten_iff_eval t hd (by decide) true (Int.le_refl 0)
    (none : Option Console)
  obtain ⟨m', hret, hmem⟩ := (hok _ _).2 heval
  exact ⟨hd, m, m', _, hm, hret, hmem⟩

end TapeMachine
