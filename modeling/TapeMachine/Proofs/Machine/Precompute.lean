import TapeMachine.Proofs.Channel.Recording
import TapeMachine.Proofs.Machine.Session
import TapeMachine.Proofs.Tape.Pairing

/-!
# The jump table makes no difference

Pairing the brackets before a run is an optimisation: a jump from a bracket in the table is a look-up
instead of a scan.  Here it is shown to be nothing else.  `Machine.plain` is a machine without its table,
and forgetting the table commutes with everything a machine can do: with executing an operator
(`execute_plain`), with a tick, with a run, and with a whole session (`performAll_plain`).

Two things make this work.  The table was filled from a program that has not changed since, because nothing
a machine does reaches into its program; this is the invariant `Sound`, and it is preserved by every touch.
And a look-up at the bracket that is being executed gives what the scan in the direction of that bracket
would find (`partner_plain`).  The second is where the direction matters: the table knows one partner for
each bracket, and it is asked for it only by an operator that stands at the code pointer.  Nothing else that
an operator does depends on the table, nor on the options (`execute_equipped`).
-/

set_option autoImplicit false
namespace TapeMachine

variable {σ : Type}

/-! ## Forgetting the table -/

/-- The same machine under other options, and with another jump table. -/
def Machine.equipped (m : Machine) (o : Options) (jumps : Option JumpTable) : Machine :=
  { m with options := o, jumps }

def Step.equipped {α : Type} (s : Step σ α) (o : Options) (jumps : Option JumpTable) : Step σ α :=
  ⟨s.machine.equipped o jumps, s.channel, s.outcome⟩

/-- The same machine without a jump table. -/
def Machine.plain (m : Machine) : Machine :=
  { m with jumps := none, options := { m.options with precompute := false } }

def Step.plain {α : Type} (s : Step σ α) : Step σ α :=
  ⟨s.machine.plain, s.channel, s.outcome⟩

def Run.plain (r : Run σ) : Run σ :=
  ⟨r.machine.plain, r.channel, r.outcome⟩

def Performed.plain (s : Performed σ) : Performed σ :=
  ⟨s.machine.plain, s.channel, s.answers⟩

namespace Machine

/-- Machines that differ only in their tables agree in everything that can be seen of them. -/
theorem fields_of_plain_eq {m m' : Machine} (h : m.plain = m'.plain) :
    m.ip = m'.ip ∧ m.ptr = m'.ptr ∧ m.ticks = m'.ticks ∧ m.halted = m'.halted ∧
      m.tape = m'.tape := by
  simp only [plain, Machine.mk.injEq] at h
  obtain ⟨htape, hip, hptr, hticks, hhalted, -, -⟩ := h
  exact ⟨hip, hptr, hticks, hhalted, htape⟩

/-! ## Machines with a table that fits their program -/

/-- The data pointer is on a data cell, the tape is no longer than a word can count, and the entries of
the jump table, if there is one, join partners of the program. -/
structure Sound (m : Machine) : Prop where
  placed : m.Placed
  isWord : IsWord m.tape.size
  linked : ∀ jt, m.jumps = some jt → ∀ (ip : Int) (b : Nat), jt.get? ip = some b →
    ∃ a : Nat, ip = a ∧ Linked m.tape.code a b

theorem Sound.touched {m m' : Machine} {i : Int} (h : m.Sound) (ht : Touched i m m') : m'.Sound := by
  refine ⟨ht.placed, ?_, ?_⟩
  · rw [ht.size]
    exact h.isWord
  · rw [ht.jumps, ht.code]
    exact h.linked

theorem sound_fresh (program : List UInt8) {dataLength : Int} (hd : 1 ≤ dataLength)
    (hsize : IsWord (1 + program.length + dataLength)) (options : Options) :
    (fresh program dataLength options).Sound := by
  refine ⟨(intact_fresh program hd options).placed, ?_, fun jt hjt ip b hb ↦ ?_⟩
  · rw [fresh, Tape.size_ofProgram]
    simp only [IsWord] at *
    omega
  · simp only [fresh] at hjt
    split at hjt
    · cases hjt
      exact JumpTable.linked_of_ofTape hb
    · cases hjt

/-! ## A look-up is a scan -/

/-- The operator `[` is written with its own byte at every level. -/
theorem eq_loopByte_of_decode {extend : Int} {b : UInt8} (h : Operator.decode extend b = .loop) :
    b = Operator.loopByte := by
  rw [Operator.decode] at h
  split at h
  · rw [← Operator.toByte_ofByte b, h]
    rfl
  · cases h

/-- The operator `]` is written with its own byte at every level. -/
theorem eq_againByte_of_decode {extend : Int} {b : UInt8} (h : Operator.decode extend b = .again) :
    b = Operator.againByte := by
  rw [Operator.decode] at h
  split at h
  · rw [← Operator.toByte_ofByte b, h]
    rfl
  · cases h

/-- The way a bracket operator jumps. -/
def Direction.operator : Direction → Operator
  | .forward => .loop
  | .backward => .again

/-- **A look-up gives what a scan would find**, for the bracket at the code pointer and in the direction
in which that bracket jumps. -/
theorem partner_plain {m : Machine} (h : m.Sound) {d : Direction} (hop : m.opcode = d.operator) :
    m.plain.partner d = m.partner d := by
  cases hj : m.jumps.bind (·.get? m.ip) with
  | none => simp only [partner, hj]; rfl
  | some target =>
    obtain ⟨jt, hjt, hget⟩ := Option.bind_eq_some_iff.mp hj
    obtain ⟨a, hip, hlink⟩ := h.linked jt hjt m.ip target hget
    have hpartner : m.partner d = .found target := by simp only [partner, hj]
    rw [hpartner]
    rw [opcode, hip] at hop
    rcases hlink.scan h.isWord with ⟨hbyte, hscan⟩ | ⟨hbyte, hscan⟩
    · cases d with
      | forward => rw [← hscan, ← hip]; rfl
      | backward =>
        have hb := eq_againByte_of_decode hop
        rw [hbyte] at hb
        exact absurd hb loopByte_ne_againByte
    · cases d with
      | forward =>
        have hb := eq_loopByte_of_decode hop
        rw [hbyte] at hb
        exact absurd hb.symm loopByte_ne_againByte
      | backward => rw [← hscan, ← hip]; rfl

theorem changeCell_plain (m : Machine) (change : Change UInt8) :
    m.plain.changeCell change = (m.changeCell change).plain := by
  have hcell : m.plain.cell? = m.cell? := rfl
  rw [changeCell, changeCell, hcell]
  cases m.cell? <;> rfl

theorem changePtr_plain (m : Machine) (change : Change Int) :
    m.plain.changePtr change = (m.changePtr change).plain := by
  obtain ⟨mode, value⟩ := change
  cases mode <;> rfl

/-! ## Operators and equipment -/

section Equipped

variable {o : Options} {jumps : Option JumpTable}

theorem onCell_equipped (m : Machine) (c : σ) {k k' : UInt8 → Step σ Unit}
    (h : ∀ v, k' v = (k v).equipped o jumps) :
    (m.equipped o jumps).onCell c k' = (m.onCell c k).equipped o jumps := by
  have hcell : (m.equipped o jumps).cell? = m.cell? := rfl
  rw [onCell, onCell, hcell]
  cases m.cell? with
  | none => rfl
  | some v => exact h v

theorem mapCell_equipped (m : Machine) (c : σ) (f : UInt8 → UInt8) :
    (m.equipped o jumps).mapCell c f = (m.mapCell c f).equipped o jumps :=
  onCell_equipped m c fun _ ↦ rfl

theorem jump_equipped {m : Machine} {d : Direction} (h : (m.equipped o jumps).partner d = m.partner d)
    (c : σ) : (m.equipped o jumps).jump c d = (m.jump c d).equipped o jumps := by
  rw [jump, jump, h]
  cases m.partner d <;> rfl

variable [Channel σ]

theorem sendCell_equipped (m : Machine) (c : σ) :
    (m.equipped o jumps).sendCell c = (m.sendCell c).equipped o jumps := by
  refine onCell_equipped m c fun v ↦ ?_
  obtain ⟨⟨answer, c'⟩, hs⟩ : ∃ r, Channel.send v c = r := ⟨_, rfl⟩
  rw [hs]
  cases answer <;> rfl

theorem receiveCell_equipped (m : Machine) (c : σ) :
    (m.equipped o jumps).receiveCell c = (m.receiveCell c).equipped o jumps := by
  rw [receiveCell, receiveCell]
  obtain ⟨⟨answer, c'⟩, hs⟩ : ∃ r, Channel.receive c = r := ⟨_, rfl⟩
  rw [hs]
  cases answer with
  | ok b => exact mapCell_equipped m c' fun _ ↦ stored b
  | error e => rfl

/-- **An operator does not look at the equipment of the machine**, as long as a bracket finds the same
partner. -/
theorem execute_equipped {op : Operator} {m : Machine}
    (h : ∀ d : Direction, op = d.operator → (m.equipped o jumps).partner d = m.partner d) (c : σ) :
    (m.equipped o jumps).execute op c = (m.execute op c).equipped o jumps := by
  cases op with
  | loop =>
    refine onCell_equipped m c fun v ↦ ?_
    split
    · exact jump_equipped (h .forward rfl) c
    · rfl
  | again =>
    refine onCell_equipped m c fun v ↦ ?_
    split
    · rfl
    · exact jump_equipped (h .backward rfl) c
  | output => exact sendCell_equipped m c
  | input => exact receiveCell_equipped m c
  | store => exact onCell_equipped m c fun _ ↦ rfl
  | nop | right | left | halt | other b => rfl
  | inc | dec | load | shl | shr | not | xor | and | or => exact mapCell_equipped m c _

end Equipped

variable [Channel σ]

/-- No operator changes the equipment: equipping a machine with its own makes no difference. -/
theorem equipment_execute (op : Operator) (m : Machine) (c : σ) :
    (m.execute op c).machine.options = m.options ∧ (m.execute op c).machine.jumps = m.jumps := by
  have hx : m.execute op c = (m.execute op c).equipped m.options m.jumps :=
    execute_equipped (fun _ _ ↦ rfl) c
  rw [hx]
  exact ⟨rfl, rfl⟩

/-- Forgetting the table commutes with executing the operator at the code pointer. -/
theorem execute_plain {m : Machine} (h : m.Sound) (c : σ) :
    m.plain.execute m.opcode c = (m.execute m.opcode c).plain := by
  have hx : m.plain.execute m.opcode c = (m.execute m.opcode c).equipped m.plain.options none :=
    execute_equipped (fun _ hop ↦ partner_plain h hop) c
  have hplain : (m.execute m.opcode c).machine.plain
      = (m.execute m.opcode c).machine.equipped m.plain.options none := by
    rw [plain, (equipment_execute m.opcode m c).1]
    rfl
  rw [hx, Step.plain, hplain]
  rfl

theorem tick_plain {m : Machine} (h : m.Sound) (c : σ) :
    m.plain.tick c = (m.tick c).plain := by
  rcases tick_cases m c with ⟨hr, ht⟩ | ⟨hr, hl, ht⟩ | ⟨hr, hl, ht⟩
  · rw [ht, tick_of_stopped (m := m.plain) hr c, Step.plain]
  · rw [ht, tick_of_atTickLimit (m := m.plain) hr hl c, Step.plain]
  · have hx : m.plain.execute m.plain.opcode c = (m.execute m.opcode c).plain := execute_plain h c
    rw [ht, tick_of_running (m := m.plain) hr hl c, hx]
    generalize m.execute m.opcode c = s
    obtain ⟨m', c', o⟩ := s
    cases o <;> rfl

theorem Sound.tick {m : Machine} (h : m.Sound) (c : σ) : (m.tick c).machine.Sound := by
  obtain ⟨i, -, ht⟩ := exists_touched_tick h.placed c
  exact h.touched ht

theorem runFor_plain {m : Machine} (h : m.Sound) (n : Nat) (c : σ) :
    m.plain.runFor n c = (m.runFor n c).plain := by
  induction n generalizing m c with
  | zero => rfl
  | succ n ih =>
    have hs := h.tick c
    rw [runFor, runFor, tick_plain h]
    generalize m.tick c = s at hs
    obtain ⟨m', c', o⟩ := s
    cases o with
    | ok stopped =>
      cases stopped with
      | true => rfl
      | false => exact ih hs c'
    | error e => rfl
    | offTape => rfl

/-- A run ends where the run without a table ends. -/
theorem returns_plain_iff {m : Machine} (h : m.Sound) {c c' : σ} {m' : Machine} {o : Outcome Unit} :
    m.plain.Returns c m' c' o ↔ ∃ m₁, m.Returns c m₁ c' o ∧ m₁.plain = m' := by
  simp only [Returns, runFor_plain h]
  constructor
  · rintro ⟨n, hn⟩
    obtain ⟨⟨m₁, c₁, o₁⟩, hr⟩ : ∃ r, m.runFor n c = r := ⟨_, rfl⟩
    rw [hr] at hn
    cases hn
    exact ⟨m₁, ⟨n, hr⟩, rfl⟩
  · rintro ⟨m₁, ⟨n, hn⟩, rfl⟩
    exact ⟨n, by rw [hn, Run.plain]⟩

end Machine

open Machine

variable {σ : Type} [Channel σ]

theorem Operation.perform_plain (op : Operation) {m : Machine} (h : m.Sound) (c : σ) :
    op.perform m.plain c = (op.perform m c).plain := by
  cases op with
  | tick => simp only [Operation.perform, tick_plain h]; rfl
  | run n => simp only [Operation.perform, runFor_plain h]; rfl
  | changeCell change => simp only [Operation.perform, changeCell_plain]; rfl
  | changePtr change => simp only [Operation.perform, changePtr_plain]; rfl
  | setCell place v => cases place <;> rfl
  | setStorage | setIp | setExtend | setTickLimit => rfl

/-- A session goes the same way without the table. -/
theorem performAll_plain (ops : List Operation) {m : Machine} (h : m.Sound) (c : σ) :
    performAll m.plain c ops = (performAll m c ops).plain := by
  induction ops generalizing m c with
  | nil => rfl
  | cons op ops ih =>
    have hs := op.perform_invariant Sound.placed Sound.touched h c
    have hrest := ih hs (op.perform m c).channel
    simp only [performAll, op.perform_plain h]
    simp only [Performed.plain] at hrest ⊢
    rw [hrest]

/-- **The jump table makes no difference to any session.**  Of two machines built alike, one with the
table and one without, every sequence of operations leaves the same tape, pointers, count and halt flag,
makes the same calls to the channel, and gives the same answers.  The length of the tape is taken to be a
word. -/
theorem performAll_precompute (program : List UInt8) {dataLength extend : Int} (tickLimit : Int)
    (hd : 1 ≤ dataLength) (he : 0 ≤ extend) (hsize : IsWord (1 + program.length + dataLength))
    (c : σ) (ops : List Operation) :
    ∃ m m' : Machine,
      build program dataLength ⟨extend, false, tickLimit⟩ = .ok m ∧
      build program dataLength ⟨extend, true, tickLimit⟩ = .ok m' ∧
      let s := performAll m (Recording.start c) ops
      let s' := performAll m' (Recording.start c) ops
      s.machine.ip = s'.machine.ip ∧
        s.machine.ptr = s'.machine.ptr ∧
        s.machine.ticks = s'.machine.ticks ∧
        s.machine.halted = s'.machine.halted ∧
        s.machine.tape = s'.machine.tape ∧
        s.channel.calls = s'.channel.calls ∧
        s.answers = s'.answers := by
  have hbuild : ∀ p, build program dataLength ⟨extend, p, tickLimit⟩
      = .ok (fresh program dataLength ⟨extend, p, tickLimit⟩) :=
    fun p ↦ build_eq_ok_iff.mpr ⟨he, hd, rfl⟩
  have hsound : ∀ p, (fresh program dataLength ⟨extend, p, tickLimit⟩).Sound :=
    fun p ↦ sound_fresh program hd hsize _
  refine ⟨_, _, hbuild false, hbuild true, ?_⟩
  have h := performAll_plain ops (hsound false) (Recording.start c)
  have h' := performAll_plain ops (hsound true) (Recording.start c)
  have hplain : (fresh program dataLength ⟨extend, true, tickLimit⟩).plain
      = (fresh program dataLength ⟨extend, false, tickLimit⟩).plain := rfl
  rw [hplain, h] at h'
  obtain ⟨hip, hptr, hticks, hhalted, htape⟩ := fields_of_plain_eq (congrArg Performed.machine h')
  have hcalls := congrArg (fun s ↦ s.channel.calls) h'
  have hanswers := congrArg Performed.answers h'
  exact ⟨hip, hptr, hticks, hhalted, htape, hcalls, hanswers⟩

/-- The program `[->]$[` at level one, on a bracket that has no partner but the storage cell. -/
theorem performAll_precompute_unbalanced :
    IsWord (1 + ([0x5b, 0x2d, 0x3e, 0x5d, 0x24, 0x5b] : List UInt8).length + 3) ∧
      ∃ m m' : Machine,
        build [0x5b, 0x2d, 0x3e, 0x5d, 0x24, 0x5b] 3 ⟨1, false, 0⟩ = .ok m ∧
        build [0x5b, 0x2d, 0x3e, 0x5d, 0x24, 0x5b] 3 ⟨1, true, 0⟩ = .ok m' ∧
        (performAll m (Recording.start (none : Option Console))
            [.setStorage 0x5b, .changeCell ⟨.set, 1⟩, .setIp 4, .tick, .run 100]).answers =
          (performAll m' (Recording.start (none : Option Console))
            [.setStorage 0x5b, .changeCell ⟨.set, 1⟩, .setIp 4, .tick, .run 100]).answers := by
  have hsize : IsWord (1 + ([0x5b, 0x2d, 0x3e, 0x5d, 0x24, 0x5b] : List UInt8).length + 3) := by
    decide
  have he : (0 : Int) ≤ 1 := by decide
  obtain ⟨m, m', hm, hm', -, -, -, -, -, -, hanswers⟩ :=
    performAll_precompute [0x5b, 0x2d, 0x3e, 0x5d, 0x24, 0x5b] 0 (by decide) he hsize
      (none : Option Console)
      [.setStorage 0x5b, .changeCell ⟨.set, 1⟩, .setIp 4, .tick, .run 100]
  exact ⟨hsize, m, m', hm, hm', hanswers⟩

end TapeMachine
