import TapeMachine.Proofs.Machine.History
import TapeMachine.Proofs.Machine.View

/-!
# A program of core operators at two levels

At level zero a machine stops where its program ends.  From level one on it does not: it goes on into its
data cells, and a program has to end with `@` to stop in time.  Apart from that, a program that makes no use
of the extended operators should not notice at which level it runs, and here it is shown that it does not,
if its brackets are balanced (`returns_core_conserved`).

The two machines go side by side, tick by tick.  `Beside` is what holds all along: both are at the same place
of the same program and show the same view.

* An operator other than a bracket does the same to both, since it is the same operator at both levels.
* A bracket leads both to the same place.  This is where balance is needed: the partner of a bracket is then in
  the program, and the scan never sees what lies behind, which is not the same on the two tapes.
* Where the one machine stops, the other stands at the `@` and takes one more tick.
-/

set_option autoImplicit false
namespace TapeMachine

open Operator (loopByte againByte decode)

/-! ## Core operators -/

/-- A byte that is no extended operator is the same operator at every level. -/
theorem decode_eq_of_cls_ne {b : UInt8} (h : (Operator.ofByte b).cls ≠ .extended) (extend : Int) :
    decode extend b = decode 0 b := by
  have hactive : Operator.active extend (Operator.ofByte b).cls
      = Operator.active 0 (Operator.ofByte b).cls := by
    cases hcls : (Operator.ofByte b).cls with
    | extended => exact absurd hcls h
    | none | core | unknown tag => rfl
  rw [decode, decode, hactive]

theorem decode_halt {extend : Int} (h : 1 ≤ extend) : decode extend Operator.halt.toByte = .halt := by
  rw [decode]
  exact if_pos (decide_eq_true h)

/-- At level zero there are no extended operators. -/
theorem cls_decode_zero_ne (b : UInt8) : (decode 0 b).cls ≠ .extended := by
  rw [decode]
  split
  · rename_i hactive
    intro hcls
    rw [hcls] at hactive
    cases hactive
  · intro hcls
    cases hcls

/-- Only extended operators touch the storage cell or halt the machine. -/
theorem View.act_of_cls_ne {σ : Type} [Channel σ] {op : Operator} (h : op.cls ≠ .extended) (v : View)
    (c : σ) : (v.act op c).1.storage = v.storage ∧ (v.act op c).1.halted = v.halted := by
  cases op with
  | halt | store | load | shl | shr | not | xor | and | or => exact absurd rfl h
  | input =>
    rw [act]
    split <;> exact ⟨rfl, rfl⟩
  | nop | inc | dec | right | left | output | loop | again | other b => exact ⟨rfl, rfl⟩

namespace Machine

/-- The bracket that jumps in a direction. -/
theorem Direction.eq_toByte_of_decode {extend : Int} {b : UInt8} {d : Direction}
    (h : decode extend b = d.operator) : b = d.operator.toByte := by
  cases d with
  | forward => exact eq_loopByte_of_decode h
  | backward => exact eq_againByte_of_decode h

/-- A scan from a linked bracket, in the direction of that bracket. -/
theorem Direction.scan_of_linked {t : Tape} (ht : IsWord t.size) {d : Direction} {a target : Nat}
    (hlink : Linked t.code a target) (hbyte : t.get? a = some d.operator.toByte) :
    d.scan t a = .found target := by
  rcases hlink.scan ht with ⟨hloop, hscan⟩ | ⟨hagain, hscan⟩
  · cases d with
    | forward => exact hscan
    | backward =>
      rw [hloop] at hbyte
      exact absurd (Option.some.inj hbyte) loopByte_ne_againByte
  · cases d with
    | forward =>
      rw [hagain] at hbyte
      exact absurd (Option.some.inj hbyte).symm loopByte_ne_againByte
    | backward => exact hscan

/-! ## Side by side -/

/-- Two machines at the same place of a program of core operators: one at level zero, and one at a level of
one or more, on whose tape the program is followed by `@`. -/
structure Beside (program : List UInt8) (v : View) (i : Nat) (m s : Machine) : Prop where
  bare : m.Bare
  bare' : s.Bare
  shows : m.Shows v
  shows' : s.Shows v
  level : m.options.extend = 0
  level' : 1 ≤ s.options.extend
  code : m.tape.code = program
  code' : s.tape.code = program ++ [Operator.halt.toByte]
  ip : m.ip = ((i + 1 : Nat) : Int)
  ip' : s.ip = ((i + 1 : Nat) : Int)
  within : i ≤ program.length
  storage : v.storage = 0
  awake : v.halted = false

namespace Beside

variable {program : List UInt8} {v v₁ : View} {i : Nat} {m s m₁ s₁ : Machine}

theorem isRunning_iff (h : Beside program v i m s) : m.isRunning = true ↔ i < program.length := by
  rw [isRunning, h.level, if_neg (by omega), decide_eq_true_iff, h.ip, m.tape.dataStart_eq, h.code]
  omega

theorem size' (h : Beside program v i m s) : i + 1 < s.tape.size := by
  have hwithin := h.within
  rw [s.tape.size_eq, h.code', List.length_append, List.length_singleton]
  omega

/-- The machine at the higher level runs on, up to and including the `@`. -/
theorem isRunning' (h : Beside program v i m s) : s.isRunning = true := by
  have hsize := h.size'
  rw [isRunning, if_pos h.level', h.shows'.halted, h.awake, h.ip']
  simp only [Bool.not_false, Bool.true_and, decide_eq_true_eq]
  omega

theorem opcode {b : UInt8} (h : Beside program v i m s) (hb : program[i]? = some b) :
    m.opcode = decode 0 b := by
  rw [Machine.opcode, h.level, h.ip, Tape.get?_of_code (h.code ▸ hb), Option.getD_some]

theorem opcode' {b : UInt8} (h : Beside program v i m s)
    (hb : (program ++ [Operator.halt.toByte])[i]? = some b) :
    s.opcode = decode s.options.extend b := by
  rw [Machine.opcode, h.ip', Tape.get?_of_code (h.code' ▸ hb), Option.getD_some]

/-- What an operator other than a bracket does to both machines at once. -/
theorem kept (h : Beside program v i m s) (hk : Kept m m₁) (hk' : Kept s s₁) (hs : m₁.Shows v₁)
    (hs' : s₁.Shows v₁) (hstorage : v₁.storage = v.storage) (hhalted : v₁.halted = v.halted) :
    Beside program v₁ i m₁ s₁ where
  bare := h.bare.kept hk
  bare' := h.bare'.kept hk'
  shows := hs
  shows' := hs'
  level := by rw [hk.options]; exact h.level
  level' := by rw [hk'.options]; exact h.level'
  code := hk.code.trans h.code
  code' := hk'.code.trans h.code'
  ip := hk.ip.trans h.ip
  ip' := hk'.ip.trans h.ip'
  within := h.within
  storage := hstorage.trans h.storage
  awake := hhalted.trans h.awake

/-- Both machines at another place of the program, whatever they have counted. -/
theorem place (h : Beside program v i m s) {j : Nat} (hj : j ≤ program.length) {a b : Int}
    (ha : a = ((j + 1 : Nat) : Int)) (hb : b = ((j + 1 : Nat) : Int)) (t t' : Nat) :
    Beside program v j { m with ip := a, ticks := t } { s with ip := b, ticks := t' } where
  bare := ⟨h.bare.tickLimit, h.bare.jumps, h.bare.isWord⟩
  bare' := ⟨h.bare'.tickLimit, h.bare'.jumps, h.bare'.isWord⟩
  shows := ⟨h.shows.storage, h.shows.data, h.shows.ptr, h.shows.halted⟩
  shows' := ⟨h.shows'.storage, h.shows'.data, h.shows'.ptr, h.shows'.halted⟩
  level := h.level
  level' := h.level'
  code := h.code
  code' := h.code'
  ip := ha
  ip' := hb
  within := hj
  storage := h.storage
  awake := h.awake

theorem advance (h : Beside program v i m s) (hi : i < program.length) :
    Beside program v (i + 1) m.advance s.advance := by
  refine h.place hi ?_ ?_ _ _
  · have hsize : i + 1 < m.tape.size := by
      rw [m.tape.size_eq, h.code, h.shows.data]
      have hlt := v.memory.offset_lt
      omega
    rw [h.ip]
    exact h.bare.wrap_succ hsize
  · rw [h.ip']
    exact h.bare'.wrap_succ h.size'

/-! ## One step -/

/-- A bracket is at the same place of both tapes, and leads to the same place. -/
theorem exists_scan (hbalanced : Balanced loopByte againByte program) (h : Beside program v i m s)
    {d : Direction} (hb : program[i]? = some d.operator.toByte) :
    ∃ j, j < program.length ∧ d.scan m.tape m.ip = .found (j + 1) ∧
      d.scan s.tape s.ip = .found (j + 1) := by
  have hbracket : d.operator.toByte = loopByte ∨ d.operator.toByte = againByte := by
    cases d with
    | forward => exact Or.inl rfl
    | backward => exact Or.inr rfl
  obtain ⟨target, hlink⟩ := hbalanced.exists_linked hb hbracket
  obtain ⟨j, rfl, hj⟩ : ∃ j, target = j + 1 ∧ j < program.length := hlink.exists_lt
  have hcode : m.tape.code[i]? = some d.operator.toByte := by
    rw [h.code]
    exact hb
  have hcode' : s.tape.code[i]? = some d.operator.toByte := by
    obtain ⟨hlt, -⟩ := List.getElem?_eq_some_iff.mp hb
    rw [h.code', List.getElem?_append_left hlt]
    exact hb
  refine ⟨j, hj, ?_, ?_⟩
  · rw [h.ip]
    refine Direction.scan_of_linked h.bare.isWord ?_ (Tape.get?_of_code hcode)
    rw [h.code]
    exact hlink
  · rw [h.ip']
    refine Direction.scan_of_linked h.bare'.isWord ?_ (Tape.get?_of_code hcode')
    rw [h.code']
    exact hlink.append _

end Beside

variable {σ : Type} [Channel σ]

/-- Two runs end side by side: both succeed, the second one a tick later and by halting; or both end with the
same fault. -/
inductive EndBeside (m s : Machine) (c : σ) : Prop
  | ok {k : Nat} {m' s' : Machine} {c' : σ} {v : View} (h : Ends k m c m' c' (.ok ()))
      (h' : Ends (k + 1) s c s' c' (.ok ())) (hs : m'.Shows v) (hs' : s'.Shows { v with halted := true })
      (hstorage : v.storage = 0)
  | fault {k : Nat} {m' s' : Machine} {c' : σ} {v : View} {ip : Int} {op : Operator} {e : Error}
      (h : Ends k m c m' c' (.error (.fault ip op e)))
      (h' : Ends k s c s' c' (.error (.fault ip op e))) (hs : m'.Shows v) (hs' : s'.Shows v)
      (hstorage : v.storage = 0)

theorem EndBeside.of_runs {n : Nat} {m s m₁ s₁ : Machine} {c c₁ : σ} (h : EndBeside m₁ s₁ c₁)
    (hm : Runs n m c m₁ c₁) (hs : Runs n s c s₁ c₁) : EndBeside m s c := by
  cases h with
  | ok h h' hv hv' hz => exact .ok (hm.ends h) (hs.ends h') hv hv' hz
  | fault h h' hv hv' hz => exact .fault (hm.ends h) (hs.ends h') hv hv' hz

namespace Beside

variable {program : List UInt8} {v : View} {i : Nat} {m s : Machine}

/-- Behind the program the one machine has stopped, and the other one halts. -/
theorem endBeside_of_length (h : Beside program v program.length m s) (c : σ) : EndBeside m s c := by
  have hstop : m.isRunning = false := by
    rw [← Bool.not_eq_true, h.isRunning_iff]
    exact Nat.lt_irrefl _
  have hop : s.opcode = .halt := by
    rw [h.opcode' List.getElem?_concat_length]
    exact decode_halt h.level'
  have htick := h.bare'.tick h.isRunning' c
  rw [hop] at htick
  have hstop' : ({ s with halted := true } : Machine).advance.isRunning = false := by
    rw [isRunning]
    exact if_pos h.level'
  refine .ok (.stop hstop) (.tick h.isRunning' htick (.stop hstop')) h.shows ?_ h.storage
  exact ⟨h.shows'.storage, h.shows'.data, h.shows'.ptr, rfl⟩

/-- Either both runs are over, or both machines do one more tick. -/
theorem next (hbalanced : Balanced loopByte againByte program)
    (hcore : ∀ b ∈ program, (Operator.ofByte b).cls ≠ .extended) (h : Beside program v i m s) (c : σ) :
    EndBeside m s c ∨ ∃ m₁ s₁ c₁ v₁ j, Runs 1 m c m₁ c₁ ∧ Runs 1 s c s₁ c₁ ∧
      Beside program v₁ j m₁ s₁ := by
  rcases Nat.eq_or_lt_of_le h.within with rfl | hi
  · exact Or.inl (h.endBeside_of_length c)
  have hr : m.isRunning = true := h.isRunning_iff.mpr hi
  have hr' : s.isRunning = true := h.isRunning'
  obtain ⟨b, hb⟩ : ∃ b, program[i]? = some b := ⟨_, List.getElem?_eq_getElem hi⟩
  have hop : m.opcode = decode 0 b := h.opcode hb
  have hop' : s.opcode = decode 0 b := by
    rw [h.opcode' (List.getElem?_append_left hi ▸ hb)]
    exact decode_eq_of_cls_ne (hcore b (List.mem_of_getElem? hb)) _
  have hbracket : ∀ d : Direction, decode 0 b = d.operator → ∃ m₁ s₁ c₁ v₁ j, Runs 1 m c m₁ c₁ ∧
      Runs 1 s c s₁ c₁ ∧ Beside program v₁ j m₁ s₁ := by
    intro d hd
    cases ht : d.takes v.memory.cell with
    | false =>
      exact ⟨_, _, c, v, i + 1, .single hr (h.bare.tick_pass h.shows hr (hop.trans hd) ht c),
        .single hr' (h.bare'.tick_pass h.shows' hr' (hop'.trans hd) ht c), h.advance hi⟩
    | true =>
      obtain rfl := Direction.eq_toByte_of_decode hd
      obtain ⟨j, hj, hscan, hscan'⟩ := h.exists_scan hbalanced hb
      have htick := h.bare.tick_jump h.shows hr (hop.trans hd) ht c
      have htick' := h.bare'.tick_jump h.shows' hr' (hop'.trans hd) ht c
      rw [hscan] at htick
      rw [hscan'] at htick'
      have hplace := h.place (Nat.le_of_lt hj) rfl rfl m.ticks s.ticks
      exact ⟨_, _, c, v, j + 1, .single hr htick, .single hr' htick', hplace.advance hj⟩
  by_cases hloop : decode 0 b = .loop
  · exact Or.inr (hbracket .forward hloop)
  by_cases hagain : decode 0 b = .again
  · exact Or.inr (hbracket .backward hagain)
  obtain ⟨m₁, hs, hk, htick⟩ := h.bare.tick_act h.shows hr (hop ▸ hloop) (hop ▸ hagain) c
  obtain ⟨s₁, hs', hk', htick'⟩ := h.bare'.tick_act h.shows' hr' (hop' ▸ hloop) (hop' ▸ hagain) c
  obtain ⟨hstorage, hhalted⟩ := View.act_of_cls_ne (cls_decode_zero_ne b) v c
  rw [hop] at hs htick
  rw [hop'] at hs' htick'
  generalize v.act (decode 0 b) c = r at hs hs' htick htick' hstorage hhalted
  obtain ⟨v₁, c₁, o⟩ := r
  cases o with
  | ok =>
    exact Or.inr ⟨_, _, c₁, v₁, i + 1, .single hr htick, .single hr' htick',
      (h.kept hk hk' hs hs' hstorage hhalted).advance hi⟩
  | error e =>
    refine Or.inl (.fault (.error htick) (.error ?_) hs hs' (hstorage.trans h.storage))
    rw [htick', h.ip, h.ip']
    rfl

/-- **If one of the two runs ends, they end side by side.** -/
theorem endBeside_of_ends (hbalanced : Balanced loopByte againByte program)
    (hcore : ∀ b ∈ program, (Operator.ofByte b).cls ≠ .extended) (k : Nat) :
    ∀ {v : View} {i : Nat} {m s m' : Machine} {c c' : σ} {o : Outcome Unit},
      Beside program v i m s → Ends k m c m' c' o ∨ Ends k s c m' c' o → EndBeside m s c := by
  induction k using Nat.strongRecOn with
  | ind k ih =>
    intro v i m s m' c c' o h hends
    rcases h.next hbalanced hcore c with hend | ⟨m₁, s₁, c₁, v₁, j, hm, hs, h₁⟩
    · exact hend
    · rcases hends with hends | hends
      · obtain ⟨l, hl, hends₁⟩ := hm.ends_of_ends hends
        exact (ih l (by omega) h₁ (Or.inl hends₁)).of_runs hm hs
      · obtain ⟨l, hl, hends₁⟩ := hs.ends_of_ends hends
        exact (ih l (by omega) h₁ (Or.inr hends₁)).of_runs hm hs

end Beside

/-! ## Whole runs -/

/-- What the runs of two machines at different levels leave, if both come to `o`. -/
structure Conserves (o : Outcome Unit) (m s : Machine) : Prop where
  data : s.tape.data = m.tape.data
  ptr : s.ptr = m.ptr
  storage : m.tape.storage = 0
  storage' : s.tape.storage = 0
  /-- There are no other ends. -/
  outcome : o = .ok () ∨ ∃ ip op cause, o = .error (.fault ip op cause)
  /-- If they succeed, the second one has halted, and that took a tick. -/
  halts : o = .ok () → s.halted = true ∧ s.ticks = m.ticks + 1

/-- Two runs that end side by side, with or without jump tables. -/
theorem EndBeside.exists_returns {m s : Machine} {c : σ} (h : EndBeside m.plain s.plain c)
    (hm : m.Sound) (hs : s.Sound) (hticks : s.ticks = m.ticks) :
    ∃ m' s' c' o, m.Returns c m' c' o ∧ s.Returns c s' c' o ∧ Conserves o m' s' := by
  cases h with
  | @ok k m₁ s₁ c' v h h' hv hv' hz =>
    obtain ⟨m', hret, rfl⟩ := (returns_plain_iff hm).mp h.returns
    obtain ⟨s', hret', rfl⟩ := (returns_plain_iff hs).mp h'.returns
    have hcount : m'.ticks = m.ticks + k := h.ticks
    have hcount' : s'.ticks = s.ticks + (k + 1) := h'.ticks
    refine ⟨m', s', c', _, hret, hret', hv'.data.trans hv.data.symm, hv'.ptr.trans hv.ptr.symm,
      hv.storage.trans hz, hv'.storage.trans hz, Or.inl rfl, fun _ ↦ ⟨hv'.halted, ?_⟩⟩
    omega
  | @fault k m₁ s₁ c' v ip op e h h' hv hv' hz =>
    obtain ⟨m', hret, rfl⟩ := (returns_plain_iff hm).mp h.returns
    obtain ⟨s', hret', rfl⟩ := (returns_plain_iff hs).mp h'.returns
    exact ⟨m', s', c', _, hret, hret', hv'.data.trans hv.data.symm, hv'.ptr.trans hv.ptr.symm,
      hv.storage.trans hz, hv'.storage.trans hz, Or.inr ⟨ip, op, e, rfl⟩, nofun⟩

/-- Machines that were just built stand side by side at the beginning of the program. -/
theorem beside_fresh (program : List UInt8) {dataLength : Int} (hd : 1 ≤ dataLength)
    (hsize : IsWord (1 + (program.length + 1) + dataLength)) {options options' : Options}
    (hlevel : options.extend = 0) (hlevel' : 1 ≤ options'.extend) (hlimit : options.tickLimit ≤ 0)
    (hlimit' : options'.tickLimit ≤ 0) :
    Beside program ⟨0, Memory.blank hd, false⟩ 0 (fresh program dataLength options).plain
      (fresh (program ++ [Operator.halt.toByte]) dataLength options').plain := by
  have hshows : ∀ (p : List UInt8) (options : Options),
      (fresh p dataLength options).plain.Shows ⟨0, Memory.blank hd, false⟩ :=
    fun p _ ↦ ⟨Tape.storage_ofProgram p _, Tape.data_ofProgram p _, rfl, rfl⟩
  have hword : ∀ (p : List UInt8), p.length ≤ program.length + 1 →
      IsWord (Tape.ofProgram p dataLength).size := by
    intro p hp
    rw [Tape.size_ofProgram]
    simp only [IsWord] at *
    omega
  exact
    { bare := ⟨hlimit, rfl, hword program (Nat.le_succ _)⟩
      bare' := ⟨hlimit', rfl, hword _ (Nat.le_of_eq List.length_append)⟩
      shows := hshows _ _
      shows' := hshows _ _
      level := hlevel
      level' := hlevel'
      code := Tape.code_ofProgram _ _
      code' := Tape.code_ofProgram _ _
      ip := rfl
      ip' := rfl
      within := Nat.zero_le _
      storage := rfl
      awake := rfl }

end Machine

open Machine

variable {σ : Type} [Channel σ]

/-- **A program of core operators does the same at every level**, if its brackets are balanced and it is
followed by `@` at a level of one or more.  Each machine may have a jump table or not, neither has a limit to
its ticks, and the tapes are no longer than a word can count.

Whatever end the run of one machine comes to, success or fault, the run of the other comes to the same end: with
the same place, operator and cause if it is a fault, with the same calls to the channel, the same data cells and
the same data pointer.  The storage cell is zero throughout.  If the runs succeed, the machine at the higher level
has halted, one tick later. -/
theorem returns_core_conserved {program : List UInt8} (hbalanced : Balanced loopByte againByte program)
    (hcore : ∀ b ∈ program, (Operator.ofByte b).cls ≠ .extended)
    {dataLength extend tickLimit tickLimit' : Int} (hd : 1 ≤ dataLength) (he : 1 ≤ extend)
    (hsize : IsWord (1 + (program.length + 1) + dataLength)) (precompute precompute' : Bool)
    (hlimit : tickLimit ≤ 0) (hlimit' : tickLimit' ≤ 0) (c : σ) :
    ∃ m s, build program dataLength ⟨0, precompute, tickLimit⟩ = .ok m ∧
      build (program ++ [Operator.halt.toByte]) dataLength ⟨extend, precompute', tickLimit'⟩ = .ok s ∧
      (∀ m' c' o, m.Returns (Recording.start c) m' c' o →
        ∃ s', s.Returns (Recording.start c) s' c' o ∧ Conserves o m' s') ∧
      (∀ s' c' o, s.Returns (Recording.start c) s' c' o →
        ∃ m', m.Returns (Recording.start c) m' c' o ∧ Conserves o m' s') := by
  have hbeside : Beside program ⟨0, Memory.blank hd, false⟩ 0
      (fresh program dataLength ⟨0, precompute, tickLimit⟩).plain
      (fresh (program ++ [Operator.halt.toByte]) dataLength ⟨extend, precompute', tickLimit'⟩).plain :=
    beside_fresh program hd hsize rfl he hlimit hlimit'
  have hm : (fresh program dataLength ⟨0, precompute, tickLimit⟩).Sound := by
    refine sound_fresh program hd ?_ _
    simp only [IsWord] at *
    omega
  have hs : (fresh (program ++ [Operator.halt.toByte]) dataLength
      ⟨extend, precompute', tickLimit'⟩).Sound := by
    refine sound_fresh _ hd ?_ _
    rw [List.length_append, List.length_singleton]
    exact hsize
  refine ⟨_, _, build_eq_ok_iff.mpr ⟨Int.le_refl 0, hd, rfl⟩,
    build_eq_ok_iff.mpr ⟨Int.le_trans Int.one_nonneg he, hd, rfl⟩, ?_, ?_⟩
  · intro m' c' o hret
    obtain ⟨k, hends⟩ := exists_ends_iff_returns.mpr ((returns_plain_iff hm).mpr ⟨_, hret, rfl⟩)
    have hend := hbeside.endBeside_of_ends hbalanced hcore k (Or.inl hends)
    obtain ⟨m₁, s₁, c₁, o₁, hret₁, hret', hconserves⟩ := hend.exists_returns hm hs rfl
    obtain ⟨rfl, rfl, rfl⟩ := hret.unique hret₁
    exact ⟨s₁, hret', hconserves⟩
  · intro s' c' o hret
    obtain ⟨k, hends⟩ := exists_ends_iff_returns.mpr ((returns_plain_iff hs).mpr ⟨_, hret, rfl⟩)
    have hend := hbeside.endBeside_of_ends hbalanced hcore k (Or.inr hends)
    obtain ⟨m₁, s₁, c₁, o₁, hret₁, hret', hconserves⟩ := hend.exists_returns hm hs rfl
    obtain ⟨rfl, rfl, rfl⟩ := hret.unique hret'
    exact ⟨m₁, hret₁, hconserves⟩

/-- The program `+[-]` succeeds in four ticks, and `+[-]@` at level two in five. -/
theorem returns_core_conserved_countdown :
    ∃ m s m' s' : Machine, ∃ c' : Recording (Option Console),
      build [0x2b, 0x5b, 0x2d, 0x5d] 1 ⟨0, true, 0⟩ = .ok m ∧
      build [0x2b, 0x5b, 0x2d, 0x5d, 0x40] 1 ⟨2, false, 0⟩ = .ok s ∧
      m.Returns (Recording.start none) m' c' (.ok ()) ∧ m'.ticks = 4 ∧
      s.Returns (Recording.start none) s' c' (.ok ()) ∧ s'.halted = true ∧ s'.ticks = 5 := by
  have hbalanced : Balanced loopByte againByte [0x2b, 0x5b, 0x2d, 0x5d] := by
    refine .cons (by decide) (by decide) ?_
    exact Balanced.nest (.cons (by decide) (by decide) .nil) .nil
  have hcore : ∀ b ∈ [0x2b, 0x5b, 0x2d, 0x5d], (Operator.ofByte b).cls ≠ .extended := by
    intro b hb
    simp only [List.mem_cons, List.not_mem_nil, or_false] at hb
    rcases hb with rfl | rfl | rfl | rfl <;> decide
  have hd : (1 : Int) ≤ 1 := Int.le_refl 1
  have he : (1 : Int) ≤ 2 := by decide
  obtain ⟨m, s, hm, hs, hends, -⟩ := returns_core_conserved hbalanced hcore hd he (by decide) true false
    (Int.le_refl 0) (Int.le_refl 0) (none : Option Console)
  obtain ⟨-, -, rfl⟩ := build_eq_ok_iff.mp hm
  obtain ⟨s', hret, hconserves⟩ := hends _ _ _ ⟨4, rfl⟩
  obtain ⟨hhalted, hticks⟩ := hconserves.halts rfl
  exact ⟨_, s, _, s', _, hm, hs, ⟨4, rfl⟩, rfl, hret, hhalted, hticks⟩

end TapeMachine
