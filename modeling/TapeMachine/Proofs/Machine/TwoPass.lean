import TapeMachine.Proofs.Machine.View

/-!
# One dispatch and two passes

A tick decodes the byte at the code pointer into one operator of one table, and executes that.  The same
can be said without operators and without decoding, by two switches over bytes, one after the other.  The
first knows the eight symbols that are always active; the second knows the nine others, and is gone through
only from extend level one on, on the byte that was fetched before the first.  `twoPass` is a step in this
style.

What happens between the two switches could set them apart.  By the time of the second one, the first
may have moved the code pointer, or have overwritten the very byte it was given, which happens when a
machine runs in its data region and receives into the cell it executes.  It makes no difference for two
reasons: the byte is fetched once, and no byte has a meaning in both switches (`corePass_of_cls_ne`,
`extendedPass_of_cls_ne`).  So at most one of them does anything, and what it does is what the operator
does (`corePass_of_core`, `extendedPass_of_extended`).

Nothing here looks at how jumps are resolved.  The first switch is given the partners of the bracket at
the code pointer; `tick_eq_twoPass` takes them as the machine finds them, and, where the table of the
machine fits its program, as a scan of the tape does.
-/

set_option autoImplicit false
namespace TapeMachine
namespace Machine

variable {σ : Type}

/-! ## The two switches -/

/-- The cell address of a tape index, or another one if that is not in the data region. -/
def cellAt (m : Machine) (i : Int) (otherwise : Tape.Address) : Tape.Address :=
  if m.tape.dataStart ≤ i ∧ i ≤ (m.tape.size : Int) - 1 then ⟨i - m.tape.dataStart⟩ else otherwise

/-- The first pass: the eight symbols that are always active.  Any other byte does nothing. -/
def corePass [Channel σ] (partner : Direction → Scan) (b : UInt8) (m : Machine) (c : σ) :
    Step σ Unit :=
  let cell := m.cell?.getD 0
  match b with
  | 0x2b => ⟨m.putCell (cell + 1), c, .ok ()⟩
  | 0x2d => ⟨m.putCell (cell - 1), c, .ok ()⟩
  | 0x3e => ⟨{ m with ptr := m.cellAt (wrap (m.ptrIndex + 1)) ⟨0⟩ }, c, .ok ()⟩
  | 0x3c =>
    ⟨{ m with ptr := m.cellAt (wrap (m.ptrIndex - 1)) ⟨(m.tape.dataLength : Int) - 1⟩ }, c, .ok ()⟩
  | 0x2e =>
    match Channel.send cell c with
    | (.ok (), c) => ⟨m, c, .ok ()⟩
    | (.error e, c) => ⟨m, c, .error e⟩
  | 0x2c =>
    match Channel.receive c with
    | (.ok v, c) => ⟨m.putCell (if v = 0x0a then 0 else v), c, .ok ()⟩
    | (.error e, c) => ⟨m, c, .error e⟩
  | 0x5b => if cell = 0 then m.land c (partner .forward) else ⟨m, c, .ok ()⟩
  | 0x5d => if cell ≠ 0 then m.land c (partner .backward) else ⟨m, c, .ok ()⟩
  | _ => ⟨m, c, .ok ()⟩

/-- The second pass: the nine symbols of the extended levels.  None of them can fail, and any other byte
does nothing. -/
def extendedPass (b : UInt8) (m : Machine) : Machine :=
  let cell := m.cell?.getD 0
  let stored := m.tape.storage
  match b with
  | 0x40 => { m with halted := true }
  | 0x24 => { m with tape := m.tape.put 0 cell }
  | 0x21 => m.putCell stored
  | 0x7b => m.putCell (cell <<< 1)
  | 0x7d => m.putCell (cell >>> 1)
  | 0x7e => m.putCell (~~~cell)
  | 0x5e => m.putCell (cell ^^^ stored)
  | 0x26 => m.putCell (cell &&& stored)
  | 0x7c => m.putCell (cell ||| stored)
  | _ => m

/-- Both passes over one byte, the second from extend level one on. -/
def passes [Channel σ] (partner : Direction → Scan) (b : UInt8) (m : Machine) (c : σ) : Step σ Unit :=
  let first := m.corePass partner b c
  if 1 ≤ m.options.extend then { first with machine := first.machine.extendedPass b } else first

/-- A step in two passes.  The byte at the code pointer is fetched, once, and both passes are gone through.
If there was no fault, the code pointer moves on and the tick is counted. -/
def twoPass [Channel σ] (partner : Direction → Scan) (m : Machine) (c : σ) : Step σ Bool :=
  let b := (m.tape.get? m.ip).getD 0
  match m.passes partner b c with
  | ⟨m', c', .ok ()⟩ =>
    let next : Machine := { m' with ip := wrap (m'.ip + 1), ticks := m'.ticks + 1 }
    ⟨next, c', .ok (!next.isRunning)⟩
  | ⟨m', c', .error e⟩ => ⟨m', c', .error (.fault m.ip (Operator.ofByte b) e)⟩
  | ⟨m', c', .offTape⟩ => ⟨m', c', .offTape⟩

/-! ## The switches are disjoint -/

/-- A byte outside the second table does nothing in the second pass. -/
theorem extendedPass_of_cls_ne {b : UInt8} (h : (Operator.ofByte b).cls ≠ .extended) (m : Machine) :
    m.extendedPass b = m := by
  unfold extendedPass
  split
  case h_10 => rfl
  all_goals exact absurd rfl h

/-- A byte of the second table does in the second pass what its operator does. -/
theorem extendedPass_of_extended {b : UInt8} (h : (Operator.ofByte b).cls = .extended) {m : Machine}
    (hm : m.Placed) [Channel σ] (c : σ) :
    m.execute (Operator.ofByte b) c = ⟨m.extendedPass b, c, .ok ()⟩ := by
  obtain ⟨v, hv⟩ := hm.cell?
  obtain ⟨op, hop⟩ : ∃ op, Operator.ofByte b = op := ⟨_, rfl⟩
  obtain rfl : b = op.toByte := by rw [← hop, Operator.toByte_ofByte]
  rw [hop] at h ⊢
  cases op with
  | nop | inc | dec | right | left | output | input | loop | again | other => cases h
  | halt => rfl
  | store => simp [execute, onCell, hv, extendedPass, Operator.toByte, putStorage, Tape.setStorage]
  | load | shl | shr | not | xor | and | or =>
    simp [execute, mapCell, onCell, hv, extendedPass, Operator.toByte]

variable [Channel σ]

/-- A byte outside the first table does nothing in the first pass. -/
theorem corePass_of_cls_ne {b : UInt8} (h : (Operator.ofByte b).cls ≠ .core)
    (partner : Direction → Scan) (m : Machine) (c : σ) : m.corePass partner b c = ⟨m, c, .ok ()⟩ := by
  unfold corePass
  split
  case h_9 => rfl
  all_goals exact absurd rfl h

/-- Where a move of the data pointer ends. -/
theorem getD_address? (m : Machine) (i : Int) (a : Tape.Address) :
    (m.tape.address? i).getD a = m.cellAt i a := by
  rw [Tape.address?, cellAt]
  split
  · rfl
  · rfl

/-- A byte of the first table does in the first pass what its operator does. -/
theorem corePass_of_core {b : UInt8} (h : (Operator.ofByte b).cls = .core) {m : Machine}
    (hm : m.Placed) (c : σ) : m.corePass m.partner b c = m.execute (Operator.ofByte b) c := by
  obtain ⟨v, hv⟩ := hm.cell?
  obtain ⟨op, hop⟩ : ∃ op, Operator.ofByte b = op := ⟨_, rfl⟩
  obtain rfl : b = op.toByte := by rw [← hop, Operator.toByte_ofByte]
  rw [hop] at h ⊢
  cases op with
  | nop | halt | store | load | shl | shr | not | xor | and | or | other => cases h
  | inc | dec => simp [execute, mapCell, onCell, hv, corePass, Operator.toByte]
  | right | left =>
    simp only [execute, changePtr, getD_address?]
    rfl
  | output =>
    rcases hsend : Channel.send v c with ⟨_ | _, c'⟩
    · simp only [execute, sendCell, onCell, corePass, Operator.toByte, hv, Option.getD_some, hsend]
    · simp only [execute, sendCell, onCell, corePass, Operator.toByte, hv, Option.getD_some, hsend]
  | input =>
    simp only [execute, receiveCell, mapCell, onCell, hv]
    rfl
  | loop =>
    simp only [execute, onCell, hv, jump_eq_land]
    simp only [corePass, Operator.toByte, hv, Option.getD_some]
  | again =>
    simp only [execute, onCell, hv, jump_eq_land]
    simp only [corePass, Operator.toByte, hv, Option.getD_some, ite_not]

/-! ## A tick in two passes -/

/-- **Both passes together do what the decoded operator does.** -/
theorem execute_decode {m : Machine} (hm : m.Placed) (b : UInt8) (c : σ) :
    m.execute (Operator.decode m.options.extend b) c = m.passes m.partner b c := by
  have hnop : m.execute .nop c = ⟨m, c, .ok ()⟩ := rfl
  rw [passes]
  cases hcls : (Operator.ofByte b).cls with
  | core =>
    have hsecond : (Operator.ofByte b).cls ≠ .extended := by simp [hcls]
    rw [Operator.decode_of_core hcls, corePass_of_core hcls hm, extendedPass_of_cls_ne hsecond,
      ite_self]
  | extended =>
    have hfirst : (Operator.ofByte b).cls ≠ .core := by simp [hcls]
    rw [corePass_of_cls_ne hfirst]
    by_cases hlevel : 1 ≤ m.options.extend
    · have hdecode : Operator.decode m.options.extend b = Operator.ofByte b := by
        simp [Operator.decode, Operator.active, hcls, hlevel]
      rw [hdecode, extendedPass_of_extended hcls hm, if_pos hlevel]
    · have hdecode : Operator.decode m.options.extend b = .nop := by
        simp [Operator.decode, Operator.active, hcls, hlevel]
      rw [hdecode, hnop, if_neg hlevel]
  | none | unknown =>
    have hfirst : (Operator.ofByte b).cls ≠ .core := by simp [hcls]
    have hsecond : (Operator.ofByte b).cls ≠ .extended := by simp [hcls]
    have hdecode : Operator.decode m.options.extend b = .nop := by
      simp [Operator.decode, Operator.active, hcls]
    rw [hdecode, hnop, corePass_of_cls_ne hfirst, extendedPass_of_cls_ne hsecond, ite_self]

/-- Only a byte of the first table can fail, and such a byte is decoded at every level. -/
theorem decode_of_execute_error {m m' : Machine} {b : UInt8} {c c' : σ} {e : Error}
    (h : m.execute (Operator.decode m.options.extend b) c = ⟨m', c', .error e⟩) :
    Operator.decode m.options.extend b = Operator.ofByte b := by
  rw [Operator.decode] at h ⊢
  split at h
  · rename_i hactive
    rw [if_pos hactive]
  · cases h

theorem twoPass_partner {m : Machine} (hm : m.Placed) (hr : m.isRunning = true)
    (hl : m.atTickLimit = false) (c : σ) : m.tick c = m.twoPass m.partner c := by
  obtain ⟨b, hb⟩ : ∃ b, (m.tape.get? m.ip).getD 0 = b := ⟨_, rfl⟩
  have hop : m.opcode = Operator.decode m.options.extend b := by rw [opcode, hb]
  rw [tick_of_running hr hl, twoPass, hb, ← execute_decode hm, hop]
  obtain ⟨⟨m', c', o⟩, hx⟩ : ∃ s, m.execute (Operator.decode m.options.extend b) c = s := ⟨_, rfl⟩
  rw [hx]
  cases o with
  | ok => rfl
  | error e => rw [← decode_of_execute_error hx]; rfl
  | offTape => rfl

/-! ## Partners by scans -/

/-- The first pass asks for the partner of the bracket it is given, and for no other. -/
theorem corePass_congr {partner partner' : Direction → Scan} {b : UInt8}
    (h : ∀ d : Direction, b = d.operator.toByte → partner d = partner' d) (m : Machine) (c : σ) :
    m.corePass partner b c = m.corePass partner' b c := by
  unfold corePass
  split
  case h_7 => rw [h .forward rfl]
  case h_8 => rw [h .backward rfl]
  all_goals rfl

omit [Channel σ] in
/-- A bracket is the same operator at every level. -/
theorem Direction.opcode {m : Machine} {d : Direction}
    (h : (m.tape.get? m.ip).getD 0 = d.operator.toByte) : m.opcode = d.operator := by
  rw [Machine.opcode, h]
  cases d <;> rfl

/-- For the bracket at the code pointer, a table that fits the program gives what a scan would find, and so
does no table at all. -/
theorem partner_eq_scan {m : Machine} (h : m.jumps = none ∨ m.Sound) {d : Direction}
    (hop : m.opcode = d.operator) : m.partner d = d.scan m.tape m.ip := by
  rcases h with hnone | hsound
  · simp only [partner, hnone]
    cases d <;> rfl
  · rw [← partner_plain hsound hop]
    cases d <;> rfl

theorem twoPass_scan {m : Machine} (h : m.jumps = none ∨ m.Sound) (c : σ) :
    m.twoPass m.partner c = m.twoPass (fun d ↦ d.scan m.tape m.ip) c := by
  have hbracket : ∀ d : Direction, (m.tape.get? m.ip).getD 0 = d.operator.toByte →
      m.partner d = d.scan m.tape m.ip := fun d hb ↦ partner_eq_scan h (Direction.opcode hb)
  rw [twoPass, twoPass, passes, passes, corePass_congr hbracket]

/-- **A tick is a step in two passes.**  Take any machine with its data pointer on a data cell, whatever is
on its tape and wherever its code pointer is.  As long as it runs and has ticks left, a tick does what the
two passes do on the byte that is fetched before them: it leaves the same machine and the same channel, and
it comes to the same, fault or not.

The partner of a bracket is the one that the machine finds.  Without a jump table, and with one that fits
the program, as in every machine that was built from it (`sound_fresh`, `Sound.touched`), that is what a
scan of the tape finds. -/
theorem tick_eq_twoPass {m : Machine} (hm : m.Placed) (hr : m.isRunning = true)
    (hl : m.atTickLimit = false) (c : σ) :
    m.tick c = m.twoPass m.partner c ∧
      (m.jumps = none ∨ m.Sound → m.tick c = m.twoPass (fun d ↦ d.scan m.tape m.ip) c) := by
  have htick := twoPass_partner hm hr hl c
  exact ⟨htick, fun h ↦ htick.trans (twoPass_scan h c)⟩

/-- A machine at level one that executes a `,` in its data region, with the data pointer on that very byte,
and receives an `@` in its place.  The second pass is still about the `,`, so the machine is not halted. -/
theorem tick_eq_twoPass_overwritten :
    let m : Machine :=
      { fresh [] 1 { extend := 1 } with tape := (Tape.ofProgram [] 1).put 1 0x2c }
    let con : Console := { input := some { rest := [0x40] } }
    m.Placed ∧ m.isRunning = true ∧ m.atTickLimit = false ∧ m.ptrIndex = m.ip ∧
      m.opcode = .input ∧
      m.tick con = m.twoPass (fun d ↦ d.scan m.tape m.ip) con ∧
      (m.twoPass (fun d ↦ d.scan m.tape m.ip) con).machine.tape.get? 1 = some 0x40 ∧
      (m.twoPass (fun d ↦ d.scan m.tape m.ip) con).machine.halted = false := by
  intro m con
  have hm : m.Placed := ⟨by decide, by decide⟩
  have hr : m.isRunning = true := rfl
  have hl : m.atTickLimit = false := rfl
  obtain ⟨-, hscan⟩ := tick_eq_twoPass hm hr hl con
  exact ⟨hm, hr, hl, rfl, rfl, hscan (Or.inl rfl), rfl, rfl⟩

end Machine
end TapeMachine
