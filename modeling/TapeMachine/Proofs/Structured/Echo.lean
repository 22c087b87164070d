import TapeMachine.Proofs.Console.Willing
import TapeMachine.Proofs.Structured.Simulation

/-!
# A program that echoes its input

The program `,[.,]` sends back what it receives.  A zero stops it, and so does a newline, which is stored as
zero.  If neither comes, the input ends while the program asks for more, and that is a fault.

The program asks in two places, by the `,` in front of the loop and by the `,` at its end, and a machine that
stands at either of them goes on in the same way: what it gets decides whether it will be at the `,` of the loop
again or at the end of the program.  `Asks` is the invariant that says so.  It is all that the loop needs, since
the brackets are behind the two lemmas about how a loop is entered and left (`Enters.enter`, `Enters.leave`).
-/

set_option autoImplicit false
namespace TapeMachine

open Operator (loopByte againByte)

/-- The program that echoes. -/
def echo : List UInt8 :=
  [0x2c, 0x5b, 0x2e, 0x2c, 0x5d]

/-- The bytes that are echoed.  The others are zero and the newline, which are stored as zero. -/
def Echoes (b : UInt8) : Prop :=
  b ≠ 0 ∧ b ≠ 0x0a

instance : DecidablePred Echoes :=
  fun b ↦ inferInstanceAs (Decidable (b ≠ 0 ∧ b ≠ 0x0a))

theorem stored_of_echoes {b : UInt8} (h : Echoes b) : Machine.stored b = b :=
  if_neg h.2

theorem stored_of_not_echoes {b : UInt8} (h : ¬Echoes b) : Machine.stored b = 0 := by
  unfold Machine.stored
  split
  · rfl
  · rename_i hne
    exact Decidable.not_not.mp fun hz ↦ h ⟨hz, hne⟩

namespace Tree

/-- What the loop repeats: it sends the cell and asks for the next. -/
def echoBody : Tree :=
  .byte 0x2e (by decide) (.byte 0x2c (by decide) .nil)

end Tree

namespace Memory

variable {mem : Memory} {con con' : Console}

theorem obey_input {b : UInt8} (h : con.receive = (.ok b, con')) :
    mem.obey 0x2c (some con) = .done (mem.write (Machine.stored b)) (some con') := by
  simp only [obey, Console.receive_some h, Machine.stored]

theorem obey_input_failed {e : Error} (h : con.receive = (.error e, con')) :
    mem.obey 0x2c (some con) = .failed mem (some con') e := by
  simp only [obey, Console.receive_some h]

theorem obey_output (h : con.send mem.cell = (.ok (), con')) :
    mem.obey 0x2e (some con) = .done mem (some con') := by
  simp only [obey, Console.send_some h]

end Memory

namespace Machine

/-! ## Asking -/

/-- A machine stands at a `,` of the program: in front of the loop, or at the end of its body. -/
inductive Asks (m : Machine) (mem : Memory) : Int → Prop
  | first (h : Stands m [] echo mem) : Asks m mem 1
  | again (h : Stands m [0x2c, loopByte, 0x2e] [0x2c, againByte] mem) : Asks m mem 4

namespace Asks

variable {m : Machine} {mem : Memory} {ip : Int} {rest taken : List UInt8} {received sent : Nat}
  {con : Console}

/-- A `,` that fails stops the machine where it stands. -/
theorem fails (h : Asks m mem ip) {con' : Console} {e : Error} (hcon : con.receive = (.error e, con')) :
    ∃ m', m.Returns (some con) m' (some con') (.error (.fault ip .input e)) ∧ m'.Holds mem := by
  have hfail : ∀ {before after : List UInt8}, Stands m before (0x2c :: after) mem →
      ∃ m', m.Returns (some con) m' (some con') (.error (.fault m.ip .input e)) ∧ m'.Holds mem := by
    intro before after hst
    obtain ⟨m', -, ht⟩ := hst.tick_eq (by decide) (some con)
    rw [Memory.obey_input_failed hcon] at ht
    exact ⟨m', (Ends.error ht.2.2).returns, ht.1⟩
  cases h with
  | first hst =>
    have hip : m.ip = 1 := hst.ip
    exact hip ▸ hfail hst
  | again hst =>
    have hip : m.ip = 4 := hst.ip
    exact hip ▸ hfail hst

/-- A `,` that gets a byte is followed by a bracket of the loop. -/
theorem takes (h : Asks m mem ip) {con' : Console} {b : UInt8} (hcon : con.receive = (.ok b, con')) :
    ∃ m₁, Runs 1 m (some con) m₁ (some con') ∧
      Enters m₁ [0x2c] [] (mem.write (stored b)) (.loop Tree.echoBody .nil) := by
  have hobey : mem.obey 0x2c (some con) = _ := Memory.obey_input hcon
  cases h with
  | first hst =>
    have hreach := hst.tick_obey (by decide) (some con)
    rw [hobey] at hreach
    obtain ⟨m₁, hrun, hst₁⟩ := hreach
    exact ⟨m₁, hrun, .front hst₁⟩
  | again hst =>
    have hreach := hst.tick_obey (by decide) (some con)
    rw [hobey] at hreach
    obtain ⟨m₁, hrun, hst₁⟩ := hreach
    exact ⟨m₁, hrun, .back hst₁⟩

/-- A byte that is not echoed leads to the end of the program. -/
theorem stops (h : Asks m mem ip) {b : UInt8} (hb : ¬Echoes b)
    (hcon : con.Books (b :: rest) taken received sent) :
    ∃ m' con', Runs 2 m (some con) m' (some con') ∧ Stands m' echo [] (mem.write 0) ∧
      con'.pending = [] ∧ con'.Books rest taken (received + 1) sent := by
  obtain ⟨con', hreceive, hpending, hbooks⟩ := hcon.receive
  obtain ⟨m₁, hrun₁, henters⟩ := h.takes hreceive
  rw [stored_of_not_echoes hb] at henters
  obtain ⟨m₂, hrun₂, hm₂⟩ := henters.leave (mem.cell_write 0) (some con')
  cases hm₂ with
  | front hst => exact ⟨m₂, con', hrun₁.trans hrun₂, hst, hpending, hbooks⟩

/-- A byte that is echoed leads to the `,` of the loop, by way of its `.`. -/
theorem goes (h : Asks m mem ip) {b : UInt8} (hb : Echoes b)
    (hcon : con.Books (b :: rest) taken received sent) :
    ∃ m' con', Runs 3 m (some con) m' (some con') ∧ Asks m' (mem.write b) 4 ∧
      con'.Books rest (taken ++ [b]) (received + 1) (sent + 1) := by
  obtain ⟨con₁, hreceive, -, hbooks₁⟩ := hcon.receive
  obtain ⟨m₁, hrun₁, henters⟩ := h.takes hreceive
  rw [stored_of_echoes hb] at henters
  have hcell : (mem.write b).cell = b := mem.cell_write b
  obtain ⟨m₂, hrun₂, hm₂⟩ := henters.enter (by rw [hcell]; exact hb.1) (some con₁)
  obtain ⟨con₂, hsend, hbooks₂⟩ := hbooks₁.send b
  have hreach := hm₂.byte (some con₁)
  rw [Memory.obey_output (hcell.symm ▸ hsend)] at hreach
  obtain ⟨m₃, hrun₃, hst₃⟩ := hreach
  exact ⟨m₃, con₂, (hrun₁.trans hrun₂).trans hrun₃, .again hst₃, hbooks₂⟩

/-- **The loop echoes.**  As long as the bytes are echoed, the machine comes back to the `,` of the loop, with
the last byte in its cell. -/
theorem run {w : List UInt8} (hw : ∀ b ∈ w, Echoes b) :
    ∀ {m : Machine} {mem : Memory} {ip : Int} {taken : List UInt8} {received sent : Nat} {con : Console},
      Asks m mem ip → con.Books (w ++ rest) taken received sent →
        ∃ n m' con', Runs n m (some con) m' (some con') ∧
          Asks m' (mem.write (w.getLastD mem.cell)) (if w = [] then ip else 4) ∧
          con'.Books rest (taken ++ w) (received + w.length) (sent + w.length) := by
  induction w with
  | nil =>
    intro m mem ip taken received sent con h hcon
    refine ⟨0, m, con, .refl, ?_, ?_⟩
    · rw [List.getLastD_nil, Memory.write_cell]
      exact h
    · rw [List.append_nil]
      exact hcon
  | cons b w ih =>
    intro m mem ip taken received sent con h hcon
    obtain ⟨hb, hafter⟩ := List.forall_mem_cons.mp hw
    obtain ⟨m₁, con₁, hrun₁, hasks₁, hbooks₁⟩ := h.goes hb hcon
    obtain ⟨n, m', con', hrun, hasks, hbooks⟩ := ih hafter hasks₁ hbooks₁
    refine ⟨3 + n, m', con', hrun₁.trans hrun, ?_, ?_⟩
    · rw [Memory.cell_write, Memory.write_write, ite_self] at hasks
      rw [List.getLastD_cons, if_neg (List.cons_ne_nil b w)]
      exact hasks
    · rw [List.append_assoc, Nat.add_assoc, Nat.add_assoc, Nat.add_comm 1] at hbooks
      exact hbooks

/-! ## Whole runs -/

/-- An input that goes on with a byte that is not echoed leads to the end of the program. -/
theorem returns_ok {w : List UInt8} {b : UInt8} (hs : m.Sound) (h : Asks m.plain mem ip)
    (hw : ∀ b ∈ w, Echoes b) (hb : ¬Echoes b) (hcon : con.Books (w ++ b :: rest) taken received sent) :
    ∃ m' con', m.Returns (some con) m' (some con') (.ok ()) ∧ m'.cell? = some 0 ∧
      con'.pending = [] ∧ con'.Books rest (taken ++ w) (received + w.length + 1) (sent + w.length) := by
  obtain ⟨n, m₁, con₁, hrun₁, hasks, hbooks₁⟩ := h.run hw hcon
  obtain ⟨m₂, con', hrun₂, hst, hpending, hbooks⟩ := hasks.stops hb hbooks₁
  obtain ⟨m', hret, rfl⟩ := hst.exists_returns hs (hrun₁.trans hrun₂)
  have hcell : m'.plain.cell? = some _ := hst.holds.shows.cell?
  rw [Memory.cell_write] at hcell
  exact ⟨m', con', hret, hcell, hpending, hbooks⟩

/-- An input that has no more to give leads to a fault. -/
theorem returns_fault {w : List UInt8} (hs : m.Sound) (h : Asks m.plain mem ip)
    (hw : ∀ b ∈ w, Echoes b) (hcon : con.Books (w ++ []) taken received sent) :
    ∃ m' con', m.Returns (some con) m' (some con')
        (.error (.fault (if w = [] then ip else 4) .input Condition.inputClosed)) ∧
      m'.cell? = some (w.getLastD mem.cell) ∧ con'.pending = [] ∧
      con'.Books [] (taken ++ w) (received + w.length) (sent + w.length) := by
  obtain ⟨n, m₁, con₁, hrun, hasks, hbooks₁⟩ := h.run hw hcon
  obtain ⟨con', hclosed, hpending, hbooks⟩ := hbooks₁.receive_closed
  obtain ⟨m₂, hret₂, hholds⟩ := hasks.fails hclosed
  obtain ⟨m', hret, rfl⟩ := (returns_plain_iff hs).mp (hrun.returns hret₂)
  have hcell : m'.plain.cell? = some _ := hholds.shows.cell?
  rw [Memory.cell_write] at hcell
  exact ⟨m', con', hret, hcell, hpending, hbooks⟩

end Asks
end Machine

open Machine

/-- **The program echoes its input, whatever that is.**  A machine is built on it, with or without a jump table,
at level zero and without a limit to its ticks, and runs on a console that has the bytes `s` to give and then is
closed, and whose output never fails.  The machine comes to its end, and what it has sent, all of which is
written by then, is the longest prefix of `s` without a zero and a newline.

* If `s` goes on after this prefix, the run succeeds.  The cell is zero, and one byte more was received than was
  sent.
* If it does not, the run ends with a fault, as the input is closed.  The fault is at the `,` of the loop, or at
  the first `,` if there was no input at all.  The cell still holds the last byte.

The length of the tape is taken to be a word. -/
theorem returns_echo (s : List UInt8) {ending : Ending} (hending : ending.Closes) {out : Output}
    (hout : out.Willing) {dataLength tickLimit : Int} (hd : 1 ≤ dataLength)
    (hsize : IsWord (1 + echo.length + dataLength)) (precompute : Bool) (hlimit : tickLimit ≤ 0) :
    let w := s.takeWhile fun b ↦ b ≠ 0 ∧ b ≠ 0x0a
    let con : Console := { input := some ⟨s, ending⟩, output := some out }
    ∃ m m' con', build echo dataLength ⟨0, precompute, tickLimit⟩ = .ok m ∧
      con'.written.toList = out.taken ++ w ∧ con'.pending = [] ∧ con'.sent = w.length ∧
      if w.length < s.length then
        m.Returns (some con) m' (some con') (.ok ()) ∧ m'.cell? = some 0 ∧ con'.received = w.length + 1
      else
        m.Returns (some con) m' (some con')
            (.error (.fault (if w = [] then 1 else 4) .input Condition.inputClosed)) ∧
          m'.cell? = some (w.getLastD 0) ∧ con'.received = w.length := by
  intro w con
  have hsound := sound_fresh echo hd hsize ⟨0, precompute, tickLimit⟩
  have hstart := stands_fresh echo hd hsize ⟨0, precompute, tickLimit⟩ rfl hlimit
  have hzero : (Memory.blank hd).cell = 0 := by
    simp [Memory.blank, Memory.cell]
  have hw : ∀ b ∈ w, Echoes b := fun b hb ↦ of_decide_eq_true (List.all_eq_true.mp List.all_takeWhile b hb)
  obtain ⟨rest, hs, hrest⟩ : ∃ rest, w ++ rest = s ∧ ∀ b ∈ rest.head?, ¬Echoes b := by
    refine ⟨_, List.takeWhile_append_dropWhile, fun b hb ↦ ?_⟩
    have hnot := List.head?_dropWhile_not (fun b : UInt8 ↦ decide (b ≠ 0 ∧ b ≠ 0x0a)) s
    rw [hb] at hnot
    exact of_decide_eq_false hnot
  have hbooks : con.Books (w ++ rest) out.taken 0 0 := by
    rw [hs]
    exact Console.books_fresh hending s hout
  have hlength : s.length = w.length + rest.length := by
    rw [← hs, List.length_append]
  cases rest with
  | cons b rest =>
    obtain ⟨m', con', hret, hcell, hpending, hbooks'⟩ :=
      Asks.returns_ok hsound (.first hstart) hw (hrest b rfl) hbooks
    rw [Nat.zero_add] at hbooks'
    refine ⟨_, m', con', build_eq_ok_iff.mpr ⟨Int.le_refl 0, hd, rfl⟩, hbooks'.written_eq hpending,
      hpending, hbooks'.sent_eq, ?_⟩
    rw [if_pos (by rw [hlength, List.length_cons]; omega)]
    exact ⟨hret, hcell, hbooks'.received_eq⟩
  | nil =>
    obtain ⟨m', con', hret, hcell, hpending, hbooks'⟩ :=
      Asks.returns_fault hsound (.first hstart) hw hbooks
    rw [Nat.zero_add] at hbooks'
    rw [hzero] at hcell
    refine ⟨_, m', con', build_eq_ok_iff.mpr ⟨Int.le_refl 0, hd, rfl⟩, hbooks'.written_eq hpending,
      hpending, hbooks'.sent_eq, ?_⟩
    rw [if_neg (by rw [hlength, List.length_nil]; omega)]
    exact ⟨hret, hcell, hbooks'.received_eq⟩

/-- Of three bytes with a newline in the middle, the first is echoed and the last is not received.  Of two bytes
without a newline both are echoed, and the third `,` finds the input closed. -/
theorem returns_echo_line :
    let out : Output := .buffered (.ofSize 8 {})
    let line : Console := { input := some ⟨[0x61, 0x0a, 0x62], .closed⟩, output := some out }
    let word : Console := { input := some ⟨[0x61, 0x62], .cutShort⟩, output := some out }
    (∃ m m' con', build echo 1 ⟨0, true, 0⟩ = .ok m ∧
      m.Returns (some line) m' (some con') (.ok ()) ∧
      con'.written.toList = [0x61] ∧ con'.received = 2 ∧ m'.cell? = some 0) ∧
    ∃ m m' con', build echo 3 ⟨0, false, -1⟩ = .ok m ∧
      m.Returns (some word) m' (some con') (.error (.fault 4 .input Condition.inputClosed)) ∧
      con'.written.toList = [0x61, 0x62] ∧ con'.received = 2 ∧ m'.cell? = some 0x62 := by
  intro out line word
  have hout : out.Willing := Buffer.willing_ofSize 8 rfl
  constructor
  · obtain ⟨m, m', con', hbuild, hwritten, -, -, hret, hcell, hreceived⟩ :=
      returns_echo [0x61, 0x0a, 0x62] (Or.inl rfl : Ending.Closes .closed) hout
        (show (1 : Int) ≤ 1 by decide) (by decide) true (Int.le_refl 0)
    exact ⟨m, m', con', hbuild, hret, hwritten, hreceived, hcell⟩
  · obtain ⟨m, m', con', hbuild, hwritten, -, -, hret, hcell, hreceived⟩ :=
      returns_echo [0x61, 0x62] (Or.inr rfl : Ending.Closes .cutShort) hout
        (show (1 : Int) ≤ 3 by decide) (by decide) false (show (-1 : Int) ≤ 0 by decide)
    exact ⟨m, m', con', hbuild, hret, hwritten, hreceived, hcell⟩

end TapeMachine
