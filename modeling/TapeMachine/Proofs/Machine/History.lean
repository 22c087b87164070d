import TapeMachine.Proofs.Console.Accounting
import TapeMachine.Proofs.Machine.Regions

/-!
# What a machine has done

A tick that succeeds on a running machine has executed one operator.  A `Deed` is such an operator,
together with the cell that was under the data pointer at the time; `deed?` is the deed of a single tick,
and `deeds n` are those of a run.  Ticks that fail, and ticks of a machine that has stopped, do nothing and
have no deed.

The deeds of a run account for whatever is counted elsewhere.

* The machine counts one tick for each of them (`ticks_runFor`).
* A console counts one byte sent for each `.` and one byte received for each `,` among them, and the bytes
  that its output takes are the cells of the former, in order (`carries_runFor`).
-/

set_option autoImplicit false
namespace TapeMachine

/-- An operator that was executed, and the cell that was under the data pointer. -/
structure Deed where
  op : Operator
  cell : UInt8
  deriving DecidableEq, Repr

namespace Deed

/-- The cells that were sent, in order. -/
def sent (ds : List Deed) : List UInt8 :=
  (ds.filter (·.op = .output)).map cell

/-- How often an operator was executed. -/
def count (op : Operator) (ds : List Deed) : Nat :=
  ds.countP (·.op = op)

theorem sent_append (ds ds' : List Deed) : sent (ds ++ ds') = sent ds ++ sent ds' := by
  rw [sent, List.filter_append, List.map_append]
  rfl

theorem count_append (op : Operator) (ds ds' : List Deed) :
    count op (ds ++ ds') = count op ds + count op ds' :=
  List.countP_append

theorem length_sent (ds : List Deed) : (sent ds).length = count .output ds := by
  rw [sent, List.length_map, count, List.countP_eq_length_filter]

end Deed

namespace Machine

variable {σ : Type}

/-! ## The deeds of ticks and runs -/

section Deeds

variable [Channel σ]

/-- What the next tick of a machine executes, if it succeeds. -/
def deed? (m : Machine) (c : σ) : Option Deed :=
  match m.isRunning, (m.tick c).outcome with
  | true, .ok _ => some ⟨m.opcode, m.cell?.getD 0⟩
  | _, _ => none

/-- What the next `n` ticks of a run execute, in order. -/
def deeds : Nat → Machine → σ → List Deed
  | 0, _, _ => []
  | n + 1, m, c =>
    match m.tick c with
    | ⟨m', c', .ok false⟩ => (m.deed? c).toList ++ deeds n m' c'
    | _ => (m.deed? c).toList

theorem deed?_of_ok {m m' : Machine} {c c' : σ} {stopped : Bool} (hr : m.isRunning = true)
    (h : m.tick c = ⟨m', c', .ok stopped⟩) : m.deed? c = some ⟨m.opcode, m.cell?.getD 0⟩ := by
  rw [deed?, hr, h]

theorem deed?_of_stopped {m : Machine} (hr : m.isRunning = false) (c : σ) : m.deed? c = none := by
  rw [deed?, hr]

theorem deed?_of_ne_ok {m : Machine} {c : σ} (h : ∀ stopped, (m.tick c).outcome ≠ .ok stopped) :
    m.deed? c = none := by
  rw [deed?]
  split
  · rename_i stopped _ ho
    exact absurd ho (h stopped)
  · rfl

/-- Where the operator was executed, and whether that succeeded, is all there is to a deed. -/
theorem deed_cases (m : Machine) (c : σ) :
    (m.deed? c = none ∧ (m.tick c).machine = m ∧ (m.tick c).channel = c) ∨
      (m.deed? c = none ∧ (m.execute m.opcode c).outcome ≠ .ok () ∧
        (m.tick c).machine = (m.execute m.opcode c).machine ∧
        (m.tick c).channel = (m.execute m.opcode c).channel) ∨
      (m.deed? c = some ⟨m.opcode, m.cell?.getD 0⟩ ∧ (m.execute m.opcode c).outcome = .ok () ∧
        (m.tick c).machine = (m.execute m.opcode c).machine.advance ∧
        (m.tick c).channel = (m.execute m.opcode c).channel) := by
  rcases tick_cases m c with ⟨hr, ht⟩ | ⟨-, -, ht⟩ | ⟨hr, -, ht⟩
  · exact Or.inl ⟨deed?_of_stopped hr c, by rw [ht], by rw [ht]⟩
  · refine Or.inl ⟨deed?_of_ne_ok ?_, by rw [ht], by rw [ht]⟩
    rw [ht]
    exact nofun
  · obtain ⟨⟨m₁, c₁, o⟩, hx⟩ : ∃ s, m.execute m.opcode c = s := ⟨_, rfl⟩
    rw [hx] at ht ⊢
    cases o with
    | ok => exact Or.inr (Or.inr ⟨deed?_of_ok hr ht, rfl, by rw [ht]; rfl, by rw [ht]; rfl⟩)
    | error e =>
      refine Or.inr (Or.inl ⟨deed?_of_ne_ok ?_, nofun, by rw [ht]; rfl, by rw [ht]; rfl⟩)
      rw [ht]
      exact nofun
    | offTape =>
      refine Or.inr (Or.inl ⟨deed?_of_ne_ok ?_, nofun, by rw [ht]; rfl, by rw [ht]; rfl⟩)
      rw [ht]
      exact nofun

end Deeds

/-! ## Ticks are counted -/

theorem ticks_onCell {m : Machine} {c : σ} {k : UInt8 → Step σ Unit}
    (h : ∀ v, (k v).machine.ticks = m.ticks) : (m.onCell c k).machine.ticks = m.ticks := by
  rw [onCell]
  split
  · exact h _
  · rfl

theorem ticks_jump (m : Machine) (c : σ) (d : Direction) :
    (m.jump c d).machine.ticks = m.ticks := by
  rw [jump]
  split <;> rfl

variable [Channel σ]

/-- No operator counts itself. -/
theorem ticks_execute (op : Operator) (m : Machine) (c : σ) :
    (m.execute op c).machine.ticks = m.ticks := by
  cases op with
  | nop | right | left | halt | other b => rfl
  | inc | dec | load | shl | shr | not | xor | and | or => exact ticks_onCell fun _ ↦ rfl
  | store => exact ticks_onCell fun _ ↦ rfl
  | output =>
    refine ticks_onCell fun v ↦ ?_
    split <;> rfl
  | input =>
    rw [execute, receiveCell]
    split
    · exact ticks_onCell fun _ ↦ rfl
    · rfl
  | loop =>
    refine ticks_onCell fun v ↦ ?_
    split
    · exact m.ticks_jump c .forward
    · rfl
  | again =>
    refine ticks_onCell fun v ↦ ?_
    split
    · rfl
    · exact m.ticks_jump c .backward

/-- A tick counts its deed. -/
theorem ticks_tick (m : Machine) (c : σ) :
    (m.tick c).machine.ticks = m.ticks + (m.deed? c).toList.length := by
  have hticks := m.ticks_execute m.opcode c
  rcases deed_cases m c with ⟨hd, hm, -⟩ | ⟨hd, -, hm, -⟩ | ⟨hd, -, hm, -⟩
  · rw [hd, hm]
    rfl
  · rw [hd, hm]
    exact hticks
  · rw [hd, hm]
    exact congrArg (· + 1) hticks

/-- A tick that succeeds is counted. -/
theorem ticks_of_tick {m m' : Machine} {c c' : σ} {stopped : Bool} (hr : m.isRunning = true)
    (h : m.tick c = ⟨m', c', .ok stopped⟩) : m'.ticks = m.ticks + 1 := by
  have hticks := m.ticks_tick c
  rw [deed?_of_ok hr h, h] at hticks
  exact hticks

/-- **A machine has done as many deeds as it has counted ticks.** -/
theorem ticks_runFor (n : Nat) (m : Machine) (c : σ) :
    (m.runFor n c).machine.ticks = m.ticks + (m.deeds n c).length := by
  induction n generalizing m c with
  | zero => rfl
  | succ n ih =>
    have hticks := m.ticks_tick c
    rw [runFor, deeds]
    generalize m.tick c = s at hticks
    obtain ⟨m', c', o⟩ := s
    rcases o with (_ | _) | e | _
    · rw [List.length_append, ih m' c', show m'.ticks = _ from hticks, Nat.add_assoc]
    · exact hticks
    · exact hticks
    · exact hticks

/-- A run that ends has counted the ticks that succeeded. -/
theorem Ends.ticks {k : Nat} {m m' : Machine} {c c' : σ} {o : Outcome Unit}
    (h : Ends k m c m' c' o) : m'.ticks = m.ticks + k := by
  induction h with
  | stop => rfl
  | @error m _ c _ _ h =>
    have hticks := m.ticks_tick c
    rw [deed?_of_ne_ok (by rw [h]; exact nofun), h] at hticks
    exact hticks
  | @offTape m _ c _ h =>
    have hticks := m.ticks_tick c
    rw [deed?_of_ne_ok (by rw [h]; exact nofun), h] at hticks
    exact hticks
  | tick hr h _ ih =>
    have hticks := ticks_of_tick hr h
    omega

theorem Runs.ticks {n : Nat} {m m' : Machine} {c c' : σ} (h : Runs n m c m' c') :
    m'.ticks = m.ticks + n := by
  induction h with
  | refl => rfl
  | tick hr h _ ih =>
    have hticks := ticks_of_tick hr h
    omega

/-! ## Bytes are counted -/

/-- What some deeds make of a console. -/
def Carries (ds : List Deed) (con con' : Console) : Prop :=
  ∃ got, con.Passes (Deed.sent ds) got con' ∧ got.length = Deed.count .input ds

theorem carries_refl (con : Console) : Carries [] con con :=
  ⟨[], con.passes_refl, rfl⟩

theorem Carries.trans {ds ds' : List Deed} {con con₁ con₂ : Console} (h : Carries ds con con₁)
    (h' : Carries ds' con₁ con₂) : Carries (ds ++ ds') con con₂ := by
  obtain ⟨got, hpasses, hlen⟩ := h
  obtain ⟨got', hpasses', hlen'⟩ := h'
  refine ⟨got ++ got', ?_, ?_⟩
  · rw [Deed.sent_append]
    exact hpasses.trans hpasses'
  · rw [List.length_append, Deed.count_append, hlen, hlen']

/-- Only two operators speak to the channel. -/
theorem channel_execute {op : Operator} (houtput : op ≠ .output) (hinput : op ≠ .input) (m : Machine)
    (c : σ) : (m.execute op c).channel = c := by
  have hcell : ∀ {k : UInt8 → Step σ Unit}, (∀ v, (k v).channel = c) → (m.onCell c k).channel = c := by
    intro k h
    rw [onCell]
    split
    · exact h _
    · rfl
  have hjump : ∀ d, (m.jump c d).channel = c := by
    intro d
    rw [jump]
    split <;> rfl
  cases op with
  | output => exact absurd rfl houtput
  | input => exact absurd rfl hinput
  | nop | right | left | halt | other b => rfl
  | inc | dec | load | shl | shr | not | xor | and | or => exact hcell fun _ ↦ rfl
  | store => exact hcell fun _ ↦ rfl
  | loop =>
    refine hcell fun v ↦ ?_
    split
    · exact hjump .forward
    · rfl
  | again =>
    refine hcell fun v ↦ ?_
    split
    · rfl
    · exact hjump .backward

/-- An operator that succeeds is counted by the console if it speaks to it, and one that fails is not. -/
theorem Placed.carries_execute {m : Machine} (hm : m.Placed) (op : Operator) (con : Console) :
    ((m.execute op con).outcome = .ok () →
      Carries [⟨op, m.cell?.getD 0⟩] con (m.execute op con).channel) ∧
    ((m.execute op con).outcome ≠ .ok () → Carries [] con (m.execute op con).channel) := by
  obtain ⟨v, hv⟩ := hm.cell?
  by_cases houtput : op = .output
  · subst houtput
    simp only [execute, sendCell, onCell, hv]
    rcases con.send_cases v with ⟨con', hs, hp⟩ | ⟨e, con', hs, hp⟩
    · rw [show Channel.send v con = _ from hs]
      exact ⟨fun _ ↦ ⟨[], hp, rfl⟩, fun h ↦ absurd rfl h⟩
    · rw [show Channel.send v con = _ from hs]
      refine ⟨fun h ↦ ?_, fun _ ↦ ⟨[], hp, rfl⟩⟩
      cases h
  · by_cases hinput : op = .input
    · subst hinput
      simp only [execute, receiveCell, mapCell, onCell, hv]
      have hr := Console.Action.receive.passes_perform con
      obtain ⟨⟨answer, con'⟩, hs⟩ : ∃ r, con.receive = r := ⟨_, rfl⟩
      rw [Console.Action.perform, hs] at hr
      rw [show Channel.receive con = _ from hs]
      cases answer with
      | ok b => exact ⟨fun _ ↦ ⟨[b], hr, rfl⟩, fun h ↦ absurd rfl h⟩
      | error e =>
        refine ⟨fun h ↦ ?_, fun _ ↦ ⟨[], hr, rfl⟩⟩
        cases h
    · rw [channel_execute houtput hinput]
      refine ⟨fun _ ↦ ⟨[], ?_, ?_⟩, fun _ ↦ carries_refl con⟩
      · rw [Deed.sent, List.filter_cons_of_neg (by simpa using houtput)]
        exact con.passes_refl
      · rw [Deed.count, List.countP_cons_of_neg (by simpa using hinput)]
        rfl

/-- A console carries the deed of a tick. -/
theorem Placed.carries_tick {m : Machine} (hm : m.Placed) (con : Console) :
    Carries (m.deed? con).toList con (m.tick con).channel := by
  obtain ⟨hok, hfailed⟩ := hm.carries_execute m.opcode con
  rcases deed_cases m con with ⟨hd, -, hc⟩ | ⟨hd, ho, -, hc⟩ | ⟨hd, ho, -, hc⟩
  · rw [hd, hc]
    exact carries_refl con
  · rw [hd, hc]
    exact hfailed ho
  · rw [hd, hc]
    exact hok ho

theorem Placed.tick {m : Machine} (hm : m.Placed) (c : σ) : (m.tick c).machine.Placed := by
  obtain ⟨i, -, ht⟩ := exists_touched_tick hm c
  exact ht.placed

/-- **A console carries the deeds of a run**, and nothing else. -/
theorem Placed.carries_runFor {m : Machine} (hm : m.Placed) (n : Nat) (con : Console) :
    Carries (m.deeds n con) con (m.runFor n con).channel := by
  induction n generalizing m con with
  | zero => exact carries_refl con
  | succ n ih =>
    have hcarries := hm.carries_tick con
    have hplaced := hm.tick con
    rw [runFor, deeds]
    generalize m.tick con = s at hcarries hplaced
    obtain ⟨m', con', o⟩ := s
    rcases o with (_ | _) | e | _
    · exact hcarries.trans (ih hplaced con')
    · exact hcarries
    · exact hcarries
    · exact hcarries

end Machine
end TapeMachine
