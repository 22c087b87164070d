import TapeMachine.Proofs.Console.Accounting
import TapeMachine.Proofs.Machine.Regions

/-!
# What a failing tick leaves behind

A tick can fail in two ways: the machine has used up its ticks, or the operator at the code pointer fails.
Operators do their work before the code pointer moves on and the tick is counted, so there is much that
could be half done when one of them fails.  Nothing is.  Only four operators can fail at all, each for a
reason of its own (`Fails`), and all of them find out before they change anything
(`fails_of_execute`).  A tick that fails therefore leaves the very machine it began with, and the position
and operator that its error names are those of that machine (`tick_error_cases`).

The channel is not part of the machine, and it may well have changed: a send that fails may have flushed a
buffer on the way.  The counters of a console have not (`Fails.console`).
-/

set_option autoImplicit false
namespace TapeMachine
namespace Machine

variable {σ : Type} [Channel σ]

/-! ## Operators -/

/-- Why an operator fails on a machine, and what it leaves of the channel. -/
inductive Fails (m : Machine) (c : σ) : Operator → Error → σ → Prop
  /-- The `]` that would have to be jumped to is missing. -/
  | loop {i : Int} (hcell : m.cell? = some 0) (h : m.partner .forward = .unmatched i) :
      Fails m c .loop Condition.bracketUnmatched c
  /-- The `[` that would have to be jumped to is missing. -/
  | again {i : Int} {v : UInt8} (hcell : m.cell? = some v) (hv : v ≠ 0)
      (h : m.partner .backward = .unmatched i) : Fails m c .again Condition.bracketUnmatched c
  /-- The channel does not take the cell. -/
  | output {v : UInt8} {e : Error} {c' : σ} (hcell : m.cell? = some v)
      (h : Channel.send v c = (.error e, c')) : Fails m c .output e c'
  /-- The channel does not give a byte. -/
  | input {e : Error} {c' : σ} (h : Channel.receive c = (.error e, c')) : Fails m c .input e c'

section Inversion

variable {m m' : Machine} {c c' : σ} {e : Error}

omit [Channel σ] in
theorem exists_of_onCell_eq_error {k : UInt8 → Step σ Unit}
    (h : m.onCell c k = ⟨m', c', .error e⟩) :
    ∃ v, m.cell? = some v ∧ k v = ⟨m', c', .error e⟩ := by
  rw [onCell] at h
  split at h
  · rename_i v hv
    exact ⟨v, hv, h⟩
  · cases h

omit [Channel σ] in
theorem mapCell_ne_error (f : UInt8 → UInt8) : m.mapCell c f ≠ ⟨m', c', .error e⟩ := by
  intro h
  obtain ⟨v, -, hv⟩ := exists_of_onCell_eq_error h
  cases hv

omit [Channel σ] in
theorem unmatched_of_jump_eq_error {d : Direction} (h : m.jump c d = ⟨m', c', .error e⟩) :
    m' = m ∧ c' = c ∧ e = Condition.bracketUnmatched ∧ ∃ i, m.partner d = .unmatched i := by
  rw [jump] at h
  split at h
  · cases h
  · rename_i i hi
    cases h
    exact ⟨rfl, rfl, rfl, i, hi⟩
  · cases h

/-- **An operator that fails has changed nothing**, and there are only four that can. -/
theorem fails_of_execute {op : Operator} (h : m.execute op c = ⟨m', c', .error e⟩) :
    m' = m ∧ Fails m c op e c' := by
  cases op with
  | nop | right | left | halt | other b => cases h
  | inc | dec | load | shl | shr | not | xor | and | or => exact absurd h (mapCell_ne_error _)
  | store =>
    obtain ⟨v, -, hv⟩ := exists_of_onCell_eq_error h
    cases hv
  | output =>
    obtain ⟨v, hcell, hv⟩ := exists_of_onCell_eq_error h
    split at hv
    · cases hv
    · rename_i hsend
      cases hv
      exact ⟨rfl, .output hcell hsend⟩
  | input =>
    rw [execute, receiveCell] at h
    split at h
    · exact absurd h (mapCell_ne_error _)
    · rename_i hreceive
      cases h
      exact ⟨rfl, .input hreceive⟩
  | loop =>
    obtain ⟨v, hcell, hv⟩ := exists_of_onCell_eq_error h
    split at hv
    · rename_i hzero
      obtain ⟨rfl, rfl, rfl, i, hi⟩ := unmatched_of_jump_eq_error hv
      exact ⟨rfl, .loop (hzero ▸ hcell) hi⟩
    · cases hv
  | again =>
    obtain ⟨v, hcell, hv⟩ := exists_of_onCell_eq_error h
    split at hv
    · cases hv
    · rename_i hzero
      obtain ⟨rfl, rfl, rfl, i, hi⟩ := unmatched_of_jump_eq_error hv
      exact ⟨rfl, .again hcell hzero hi⟩

end Inversion

/-! ## Ticks and runs -/

/-- **A tick that fails leaves the machine as it was.**  The machine was running, and either it was at its
limit or the error names its code pointer, the operator there, and why that operator fails. -/
theorem tick_error_cases {m m' : Machine} {c c' : σ} {e : Error}
    (h : m.tick c = ⟨m', c', .error e⟩) :
    m.isRunning = true ∧ m' = m ∧
      ((m.atTickLimit = true ∧ e = Condition.tickLimit ∧ c' = c) ∨
        (m.atTickLimit = false ∧ ∃ cause, e = .fault m.ip m.opcode cause ∧
          Fails m c m.opcode cause c')) := by
  rcases tick_cases m c with ⟨-, ht⟩ | ⟨hr, hl, ht⟩ | ⟨hr, hl, ht⟩
  · rw [ht] at h
    cases h
  · rw [ht] at h
    cases h
    exact ⟨hr, rfl, Or.inl ⟨hl, rfl, rfl⟩⟩
  · rw [ht] at h
    obtain ⟨⟨m₁, c₁, o⟩, hx⟩ : ∃ s, m.execute m.opcode c = s := ⟨_, rfl⟩
    rw [hx] at h
    cases o with
    | ok => cases h
    | offTape => cases h
    | error cause =>
      cases h
      obtain ⟨rfl, hfails⟩ := fails_of_execute hx
      exact ⟨hr, rfl, Or.inr ⟨hl, cause, rfl, hfails⟩⟩

/-- A run that fails has left the machine on which its last tick failed. -/
theorem Ends.exists_tick_error {k : Nat} {m m' : Machine} {c c' : σ} {o : Outcome Unit} {e : Error}
    (h : Ends k m c m' c' o) (ho : o = .error e) : ∃ c₁, m'.tick c₁ = ⟨m', c', .error e⟩ := by
  induction h with
  | stop | offTape => cases ho
  | error htick =>
    cases ho
    obtain ⟨-, rfl, -⟩ := tick_error_cases htick
    exact ⟨_, htick⟩
  | tick _ _ _ ih => exact ih ho

/-- A run that ends with a fault has stopped on the operator that the fault names. -/
theorem stands_of_returns_fault {m m' : Machine} {c c' : σ} {ip : Int} {op : Operator}
    {cause : Error} (h : m.Returns c m' c' (.error (.fault ip op cause))) :
    m'.ip = ip ∧ m'.opcode = op := by
  obtain ⟨k, hends⟩ := exists_ends_iff_returns.mpr h
  obtain ⟨c₁, htick⟩ := hends.exists_tick_error rfl
  obtain ⟨-, -, ⟨-, he, -⟩ | ⟨-, cause', he, -⟩⟩ := tick_error_cases htick
  · cases he
  · cases he
    exact ⟨rfl, rfl⟩

/-! ## Channels that may be missing -/

/-- Without a channel, the operators that need one fail for that reason; with one, they fail as the
channel does. -/
theorem Fails.of_option {m : Machine} {c c' : Option σ} {op : Operator} {e : Error}
    (h : Fails m c op e c') :
    ((op = .loop ∨ op = .again) ∧ e = Condition.bracketUnmatched) ∨
      ((op = .output ∨ op = .input) ∧ c = none ∧ e = Condition.channelInvalid) ∨
      (op = .output ∧ ∃ s v, c = some s ∧ m.cell? = some v ∧ (Channel.send v s).1 = .error e) ∨
      (op = .input ∧ ∃ s, c = some s ∧ (Channel.receive s).1 = .error e) := by
  cases h with
  | loop => exact Or.inl ⟨Or.inl rfl, rfl⟩
  | again => exact Or.inl ⟨Or.inr rfl, rfl⟩
  | @output v _ _ hcell h =>
    cases c with
    | none =>
      cases h
      exact Or.inr (Or.inl ⟨Or.inl rfl, rfl, rfl⟩)
    | some s =>
      exact Or.inr (Or.inr (Or.inl ⟨rfl, s, v, rfl, hcell, congrArg Prod.fst h⟩))
  | input h =>
    cases c with
    | none =>
      cases h
      exact Or.inr (Or.inl ⟨Or.inr rfl, rfl, rfl⟩)
    | some s =>
      exact Or.inr (Or.inr (Or.inr ⟨rfl, s, rfl, congrArg Prod.fst h⟩))

/-- A console counts nothing for an operator that fails. -/
theorem Fails.console {m : Machine} {con : Console} {c' : Option Console} {op : Operator} {e : Error}
    (h : Fails m (some con) op e c') :
    ∃ con', c' = some con' ∧ con'.sent = con.sent ∧ con'.received = con.received := by
  cases h with
  | loop | again => exact ⟨con, rfl, rfl, rfl⟩
  | @output v _ _ hcell h =>
    obtain ⟨⟨answer, con'⟩, hsend⟩ : ∃ r, con.send v = r := ⟨_, rfl⟩
    change (con.send v).map id some = _ at h
    rw [hsend] at h
    cases h
    have hpasses := Console.passes_of_send_error hsend
    exact ⟨con', rfl, hpasses.sent, hpasses.received⟩
  | input h =>
    obtain ⟨⟨answer, con'⟩, hreceive⟩ : ∃ r, con.receive = r := ⟨_, rfl⟩
    change con.receive.map id some = _ at h
    rw [hreceive] at h
    cases h
    have hpasses := Console.passes_of_receive_error hreceive
    exact ⟨con', rfl, hpasses.sent, hpasses.received⟩

/-- **A tick that fails is as if it had not been tried**, but for its error, which names its cause.

* The machine was running, and all of it is as it was before.
* The error is the tick limit exactly if the machine has used up a positive limit.  Otherwise it is a
  fault, with the code pointer and the operator there.  The operator is a bracket without a partner, or one
  that speaks to the channel, which then is missing or has itself refused.
* If the channel is a console, it has counted nothing.
* A run that ends with a fault leaves a machine that still stands where the fault says, on the operator it
  says. -/
theorem tick_error_atomic (m : Machine) :
    (∀ {σ : Type} [Channel σ] {c c' : Option σ} {m' : Machine} {e : Error},
      m.tick c = ⟨m', c', .error e⟩ →
        m.isRunning = true ∧ m' = m ∧
          (e = Condition.tickLimit ↔
            0 < m.options.tickLimit ∧ m.options.tickLimit ≤ m.ticks) ∧
          (e ≠ Condition.tickLimit → ∃ cause, e = .fault m.ip m.opcode cause ∧
            (((m.opcode = .loop ∨ m.opcode = .again) ∧ cause = Condition.bracketUnmatched) ∨
              ((m.opcode = .output ∨ m.opcode = .input) ∧ c = none ∧
                cause = Condition.channelInvalid) ∨
              (m.opcode = .output ∧ ∃ s v, c = some s ∧ m.cell? = some v ∧
                (Channel.send v s).1 = .error cause) ∨
              (m.opcode = .input ∧ ∃ s, c = some s ∧ (Channel.receive s).1 = .error cause)))) ∧
    (∀ {con : Console} {c' : Option Console} {m' : Machine} {e : Error},
      m.tick (some con) = ⟨m', c', .error e⟩ →
        ∃ con', c' = some con' ∧ con'.sent = con.sent ∧ con'.received = con.received) ∧
    (∀ {σ : Type} [Channel σ] {c c' : Option σ} {m' : Machine} {ip : Int} {op : Operator}
      {cause : Error}, m.Returns c m' c' (.error (.fault ip op cause)) →
        m'.ip = ip ∧ m'.opcode = op) := by
  have hlimit : m.atTickLimit = true ↔
      0 < m.options.tickLimit ∧ m.options.tickLimit ≤ m.ticks := by
    simp [atTickLimit]
  refine ⟨?_, ?_, stands_of_returns_fault⟩
  · intro σ _ c c' m' e h
    obtain ⟨hr, hm, ⟨hl, rfl, -⟩ | ⟨hl, cause, rfl, hfails⟩⟩ := tick_error_cases h
    · exact ⟨hr, hm, iff_of_true rfl (hlimit.mp hl), fun hne ↦ absurd rfl hne⟩
    · have hne : Error.fault m.ip m.opcode cause ≠ Condition.tickLimit := by
        intro he
        cases he
      refine ⟨hr, hm, iff_of_false hne ?_, fun _ ↦ ⟨cause, rfl, hfails.of_option⟩⟩
      rw [← hlimit, hl]
      exact Bool.false_ne_true
  · intro con c' m' e h
    obtain ⟨-, -, ⟨-, -, hc⟩ | ⟨-, cause, -, hfails⟩⟩ := tick_error_cases h
    · exact ⟨con, hc, rfl, rfl⟩
    · exact hfails.console

/-- The program `,` on a console with a prompt in its buffer and an input at its end: the prompt is
flushed, and that is all that happens. -/
theorem tick_error_atomic_prompt :
    let m := fresh [0x2c] 1 {}
    let con : Console :=
      { input := some {}, output := some (.buffered { size := 4, pending := #[0x3f] }), sent := 1 }
    let con' : Console :=
      { con with output := some (.buffered { sink := { bytes := #[0x3f] }, size := 4 }) }
    m.tick (some con) = ⟨m, some con', .error (.fault 1 .input Condition.inputClosed)⟩ ∧
      m.isRunning = true ∧ con'.sent = con.sent ∧ con'.received = con.received ∧
      m.Returns (some con) m (some con') (.error (.fault 1 .input Condition.inputClosed)) ∧
      m.ip = 1 ∧ m.opcode = .input := by
  intro m con con'
  have htick : m.tick (some con) = ⟨m, some con', .error (.fault 1 .input Condition.inputClosed)⟩ :=
    rfl
  have hreturns : m.Returns (some con) m (some con')
      (.error (.fault 1 .input Condition.inputClosed)) := ⟨1, rfl⟩
  obtain ⟨hatomic, hconsole, hstands⟩ := tick_error_atomic m
  obtain ⟨hr, -, -, -⟩ := hatomic htick
  obtain ⟨con₁, hcon, hsent, hreceived⟩ := hconsole htick
  cases hcon
  exact ⟨htick, hr, hsent, hreceived, hreturns, hstands hreturns⟩

end Machine
end TapeMachine
