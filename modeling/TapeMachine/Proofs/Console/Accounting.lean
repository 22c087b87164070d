import TapeMachine.Console

/-!
# What goes through a console

A console hands bytes on in two directions, and each direction has a place where bytes could go astray.
What is sent may wait in a buffer, and the write that empties the buffer may fail; what is received comes
from an input that may be fed by the output itself.  This file keeps the books.

Everything an output was ever given is the bytes in its sink followed by those that still wait
(`Output.taken`).  Flushing moves bytes from the second part to the first and leaves the whole alone,
whether it succeeds or fails; writing a byte adds that byte at the end, or fails and adds nothing.  In the
other direction, `Input.supply` is all that an input has left to give, and reading takes its first byte.

`Passes given got con con'` says how the books of a console change when the bytes `given` are sent and the
bytes `got` are received.  There is one lemma for each operation, and such steps can be put together
(`Passes.trans`), so what holds of one operation holds of every sequence of them (`passes_carryOut`).
-/

set_option autoImplicit false
namespace TapeMachine

/-! ## Outputs -/

/-- A write to a sink stores all of its bytes or none. -/
theorem Sink.write_cases (s : Sink) (bs : List UInt8) :
    s.write bs = (.ok (), { s with bytes := s.bytes ++ bs }) ∨ s.write bs = (.error s.error, s) := by
  rw [write]
  split
  · exact Or.inl rfl
  · exact Or.inr rfl

namespace Output

/-- Every byte that an output took, in order: first those in the sink, then those that wait. -/
def taken (out : Output) : List UInt8 :=
  out.sink.bytes.toList ++ out.pending

/-- The output took the bytes `bs` in addition, and its sink has lost nothing. -/
structure Took (bs : List UInt8) (out out' : Output) : Prop where
  taken : out'.taken = out.taken ++ bs
  sink : out.sink.bytes.toList <+: out'.sink.bytes.toList

theorem took_refl (out : Output) : Took [] out out :=
  ⟨(List.append_nil _).symm, List.prefix_refl _⟩

theorem Took.trans {bs bs' : List UInt8} {out out₁ out₂ : Output} (h : Took bs out out₁)
    (h' : Took bs' out₁ out₂) : Took (bs ++ bs') out out₂ := by
  refine ⟨?_, h.sink.trans h'.sink⟩
  rw [h'.taken, h.taken, List.append_assoc]

end Output

namespace Buffer

/-- A flush that succeeds leaves nothing waiting; one that fails leaves everything where it was. -/
theorem flush_cases (b : Buffer) :
    (∃ b', b.flush = (.ok (), b') ∧ b'.pending = #[] ∧
      b'.sink.bytes = b.sink.bytes ++ b.pending.toList) ∨
    ∃ e b', b.flush = (.error e, b') ∧ b'.pending = b.pending ∧ b'.sink = b.sink := by
  obtain ⟨sink, size, pending, stuck⟩ := b
  cases stuck with
  | some e => exact Or.inr ⟨e, _, rfl, rfl, rfl⟩
  | none =>
    by_cases hp : pending = #[]
    · subst hp
      exact Or.inl ⟨_, rfl, rfl, by simp⟩
    · have hne : ¬pending.isEmpty = true := by simpa using hp
      rcases sink.write_cases pending.toList with hw | hw
      · refine Or.inl ⟨⟨{ sink with bytes := sink.bytes ++ pending.toList }, size, #[], none⟩, ?_,
          rfl, rfl⟩
        simp only [flush, if_neg hne, writeThrough, hw]
      · refine Or.inr ⟨sink.error, ⟨sink, size, pending, some sink.error⟩, ?_, rfl, rfl⟩
        simp only [flush, if_neg hne, writeThrough, hw]

theorem took_flush (b : Buffer) : Output.Took [] (.buffered b) (.buffered b.flush.2) := by
  rcases b.flush_cases with ⟨b', hf, hp, hs⟩ | ⟨e, b', hf, hp, hs⟩
  · rw [hf]
    refine ⟨?_, ?_⟩ <;> simp [Output.taken, Output.sink, Output.pending, hp, hs]
  · rw [hf]
    refine ⟨?_, ?_⟩ <;> simp [Output.taken, Output.sink, Output.pending, hp, hs]

theorem took_pending (b : Buffer) (byte : UInt8) :
    Output.Took [byte] (.buffered b) (.buffered { b with pending := b.pending.push byte }) := by
  refine ⟨?_, ?_⟩ <;> simp [Output.taken, Output.sink, Output.pending]

/-- A byte is taken, or it is not and nothing is changed by it. -/
theorem push_cases (b : Buffer) (byte : UInt8) :
    (∃ b', b.push byte = (.ok (), b') ∧ Output.Took [byte] (.buffered b) (.buffered b')) ∨
    ∃ e b', b.push byte = (.error e, b') ∧ Output.Took [] (.buffered b) (.buffered b') := by
  rw [push]
  split
  · rename_i e _
    exact Or.inr ⟨e, b, rfl, Output.took_refl _⟩
  · split
    · exact Or.inl ⟨_, rfl, b.took_pending byte⟩
    · -- the buffer is full: whether or not it can be emptied, nothing of it is lost
      have hflush := b.took_flush
      rcases b.flush_cases with ⟨b', hf, -⟩ | ⟨e, b', hf, -⟩
      · rw [hf] at hflush ⊢
        exact Or.inl ⟨_, rfl, hflush.trans (b'.took_pending byte)⟩
      · rw [hf] at hflush ⊢
        exact Or.inr ⟨e, b', rfl, hflush⟩

end Buffer

namespace Output

/-- Where nothing waits, what is taken is what is written to the sink. -/
theorem took_of_sink {out out' : Output} {bs : List UInt8} (hp : out.pending = [])
    (hp' : out'.pending = []) (h : out'.sink.bytes = out.sink.bytes ++ bs) : Took bs out out' := by
  refine ⟨?_, ?_⟩ <;> simp [taken, hp, hp', h]

/-- Writing a byte adds it behind all others, or fails and adds nothing. -/
theorem write_cases (out : Output) (byte : UInt8) :
    (∃ out', out.write [byte] = (.ok (), out') ∧ Took [byte] out out') ∨
    ∃ e out', out.write [byte] = (.error e, out') ∧ Took [] out out' := by
  cases out with
  | direct s =>
    rcases s.write_cases [byte] with hw | hw
    · exact Or.inl ⟨_, by rw [write, hw]; rfl, took_of_sink rfl rfl rfl⟩
    · exact Or.inr ⟨_, _, by rw [write, hw]; rfl, took_refl _⟩
  | buffered b =>
    rcases b.push_cases byte with ⟨b', hp, ht⟩ | ⟨e, b', hp, ht⟩
    · exact Or.inl ⟨_, by rw [write, Buffer.write, hp]; rfl, ht⟩
    · exact Or.inr ⟨_, _, by rw [write, Buffer.write, hp]; rfl, ht⟩
  | unflushable s e =>
    rcases s.write_cases [byte] with hw | hw
    · exact Or.inl ⟨_, by rw [write, hw]; rfl, took_of_sink rfl rfl rfl⟩
    · exact Or.inr ⟨_, _, by rw [write, hw]; rfl, took_refl _⟩

/-- Flushing takes nothing and loses nothing.  If it succeeds, nothing is left waiting. -/
theorem flush_cases (out : Output) :
    (∃ out', out.flush = (.ok (), out') ∧ out'.pending = [] ∧ Took [] out out') ∨
    ∃ e out', out.flush = (.error e, out') ∧ Took [] out out' := by
  cases out with
  | direct s => exact Or.inl ⟨_, rfl, rfl, took_refl _⟩
  | unflushable s e => exact Or.inr ⟨e, _, rfl, took_refl _⟩
  | buffered b =>
    have ht := b.took_flush
    rcases b.flush_cases with ⟨b', hf, hp, -⟩ | ⟨e, b', hf, -⟩
    · rw [hf] at ht
      exact Or.inl ⟨_, by rw [flush, hf]; rfl, by simp [pending, hp], ht⟩
    · rw [hf] at ht
      exact Or.inr ⟨e, _, by rw [flush, hf]; rfl, ht⟩

end Output

/-! ## Inputs -/

namespace Input

/-- All that an input has left to give, when `written` is what has reached the output. -/
def supply (s : Input) (written : List UInt8) : List UInt8 :=
  match s.ending with
  | .written taken => s.rest ++ written.drop taken
  | _ => s.rest

/-- Taking a block from the output moves it from one part of the supply to the other.  The supply may be
looked at later, when more has been written. -/
theorem supply_refill (s : Input) {written : Array UInt8} {later : List UInt8}
    (h : written.toList <+: later) : (s.refill written).supply later = s.supply later := by
  obtain ⟨rest, ending⟩ := s
  cases rest with
  | cons b rest => cases ending <;> rfl
  | nil =>
    cases ending with
    | closed | cutShort | failed text => rfl
    | written taken =>
      have hblock : (written.extract taken (taken + blockSize)).toList <+: later.drop taken := by
        have hdrop : written.toList.drop taken <+: later.drop taken := by
          obtain ⟨more, rfl⟩ := h
          rw [List.drop_append]
          exact List.prefix_append _ _
        refine List.IsPrefix.trans ?_ hdrop
        simp [List.extract_eq_take_drop, List.take_prefix]
      obtain ⟨more, hmore⟩ := hblock
      simp only [refill, supply, List.nil_append]
      rw [← List.drop_drop, ← hmore, List.drop_left]

/-- A read takes the first byte of the supply, or finds nothing and changes nothing. -/
theorem next_cases (s : Input) :
    (∃ b s', s.next = (.ok b, s') ∧ ∀ written, b :: s'.supply written = s.supply written) ∨
    s.next = (.error s.ending, s) := by
  obtain ⟨rest, ending⟩ := s
  cases rest with
  | cons b rest => exact Or.inl ⟨b, _, rfl, fun written ↦ by cases ending <;> rfl⟩
  | nil => exact Or.inr rfl

end Input

/-! ## The books of a console -/

namespace Console

/-- Every byte the output of a console took. -/
def taken (con : Console) : List UInt8 :=
  match con.output with
  | some out => out.taken
  | none => []

/-- The bytes that wait to be flushed. -/
def pending (con : Console) : List UInt8 :=
  match con.output with
  | some out => out.pending
  | none => []

/-- All that the input of a console has left to give. -/
def supply (con : Console) (written : List UInt8) : List UInt8 :=
  match con.input with
  | some input => input.supply written
  | none => []

/-- The bytes `given` were sent and the bytes `got` were received, and nothing else. -/
structure Passes (given got : List UInt8) (con con' : Console) : Prop where
  sent : con'.sent = con.sent + given.length
  received : con'.received = con.received + got.length
  taken : con'.taken = con.taken ++ given
  written : con.written.toList <+: con'.written.toList
  /-- Whatever is written later on, the bytes received were the first of the supply. -/
  supply : ∀ later, con'.written.toList <+: later → got ++ con'.supply later = con.supply later

theorem passes_refl (con : Console) : Passes [] [] con con :=
  ⟨rfl, rfl, (List.append_nil _).symm, List.prefix_refl _, fun _ _ ↦ rfl⟩

theorem Passes.trans {given given' got got' : List UInt8} {con con₁ con₂ : Console}
    (h : Passes given got con con₁) (h' : Passes given' got' con₁ con₂) :
    Passes (given ++ given') (got ++ got') con con₂ where
  sent := by rw [h'.sent, h.sent, List.length_append, Nat.add_assoc]
  received := by rw [h'.received, h.received, List.length_append, Nat.add_assoc]
  taken := by rw [h'.taken, h.taken, List.append_assoc]
  written := h.written.trans h'.written
  supply := by
    intro later hlater
    rw [List.append_assoc, h'.supply later hlater, h.supply later (h'.written.trans hlater)]

/-- What an output takes shows in the books of its console. -/
theorem passes_of_took {bs : List UInt8} {out out' : Output} (h : out.Took bs out')
    (input : Option Input) (received sent : Nat) :
    Passes bs [] ⟨input, some out, received, sent⟩ ⟨input, some out', received, sent + bs.length⟩ :=
  ⟨rfl, rfl, h.taken, h.sink, fun _ _ ↦ rfl⟩

/-- **Flushing passes nothing**, and leaves the input alone.  It succeeds only if nothing is left waiting,
and fails only with an error of the output. -/
theorem flush_cases (con : Console) :
    (∃ con', con.flush = (.ok (), con') ∧ con'.pending = [] ∧ con'.input = con.input ∧
      Passes [] [] con con') ∨
    ∃ e con', con.flush = (.error (failure .outputFailed e), con') ∧ con'.input = con.input ∧
      Passes [] [] con con' := by
  obtain ⟨input, output, received, sent⟩ := con
  cases output with
  | none => exact Or.inl ⟨_, rfl, rfl, rfl, passes_refl _⟩
  | some out =>
    rcases out.flush_cases with ⟨out', hf, hp, ht⟩ | ⟨e, out', hf, ht⟩
    · have hflush : flush ⟨input, some out, received, sent⟩
          = (.ok (), ⟨input, some out', received, sent⟩) := by
        simp only [flush, hf]
      exact Or.inl ⟨_, hflush, hp, rfl, passes_of_took ht input received sent⟩
    · have hflush : flush ⟨input, some out, received, sent⟩
          = (.error (failure .outputFailed e), ⟨input, some out', received, sent⟩) := by
        simp only [flush, hf]
      exact Or.inr ⟨e, _, hflush, rfl, passes_of_took ht input received sent⟩

/-- **Sending passes the byte on, or nothing.** -/
theorem send_cases (con : Console) (byte : UInt8) :
    (∃ con', con.send byte = (.ok (), con') ∧ Passes [byte] [] con con') ∨
    ∃ e con', con.send byte = (.error e, con') ∧ Passes [] [] con con' := by
  obtain ⟨input, output, received, sent⟩ := con
  cases output with
  | none => exact Or.inr ⟨_, _, rfl, passes_refl _⟩
  | some out =>
    rcases out.write_cases byte with ⟨out', hw, ht⟩ | ⟨e, out', hw, ht⟩
    · have hsend : send byte ⟨input, some out, received, sent⟩
          = (.ok (), ⟨input, some out', received, sent + 1⟩) := by
        simp only [send, hw]
      exact Or.inl ⟨_, hsend, passes_of_took ht input received sent⟩
    · have hsend : send byte ⟨input, some out, received, sent⟩
          = (.error (failure .outputFailed e), ⟨input, some out', received, sent⟩) := by
        simp only [send, hw]
      exact Or.inr ⟨_, _, hsend, passes_of_took ht input received sent⟩

/-- The answers of a read: a byte, or how the input came to its end. -/
inductive Attempted : Except Error UInt8 → Prop
  | byte (b : UInt8) : Attempted (.ok b)
  | closed : Attempted (.error Condition.inputClosed)
  | failed (text : String) : Attempted (.error (failure .inputFailed text))

theorem attempted_endError (ending : Ending) : Attempted (.error (endError ending)) := by
  cases ending with
  | closed | cutShort | written taken => exact .closed
  | failed text => exact .failed text

/-- No failure of the output looks like the answer of a read. -/
theorem not_attempted_outputFailed (text : String) :
    ¬Attempted (.error (failure .outputFailed text)) :=
  nofun

/-- Reading passes the first byte of the input, or nothing; in either case it leaves the output alone. -/
theorem read_cases (con : Console) :
    (∃ b con', con.read = (.ok b, con') ∧ con'.output = con.output ∧ Passes [] [b] con con') ∨
    ∃ e con', con.read = (.error e, con') ∧ con'.output = con.output ∧ Attempted (.error e) ∧
      Passes [] [] con con' := by
  obtain ⟨input, output, received, sent⟩ := con
  cases input with
  | none => exact Or.inr ⟨_, _, rfl, rfl, .closed, passes_refl _⟩
  | some input =>
    obtain ⟨written, hwritten⟩ : ∃ w, written ⟨some input, output, received, sent⟩ = w := ⟨_, rfl⟩
    have hrefill : ∀ later, written.toList <+: later →
        (input.refill written).supply later = input.supply later :=
      fun later ↦ input.supply_refill
    rcases (input.refill written).next_cases with ⟨b, input', hn, hs⟩ | hn
    · refine Or.inl ⟨b, ⟨some input', output, received + 1, sent⟩, ?_, rfl, rfl, rfl,
        (List.append_nil _).symm, List.prefix_refl _, fun later hlater ↦ ?_⟩
      · simp only [read, hwritten, hn]
      · exact (hs later).trans (hrefill later (hwritten ▸ hlater))
    · refine Or.inr ⟨endError (input.refill written).ending,
        ⟨some (input.refill written), output, received, sent⟩, ?_, rfl, attempted_endError _, rfl, rfl,
        (List.append_nil _).symm, List.prefix_refl _, fun later hlater ↦ ?_⟩
      · simp only [read, hwritten, hn]
      · exact hrefill later (hwritten ▸ hlater)

/-- **Receiving** passes a byte on and leaves nothing waiting; or it finds the input at its end, passes
nothing on and leaves nothing waiting; or its flush fails, and then the input is not touched. -/
theorem receive_cases (con : Console) :
    (∃ b con', con.receive = (.ok b, con') ∧ con'.pending = [] ∧ con.flush.1 = .ok () ∧
      Passes [] [b] con con') ∨
    (∃ e con', con.receive = (.error e, con') ∧ con'.pending = [] ∧ con.flush.1 = .ok () ∧
      Attempted (.error e) ∧ Passes [] [] con con') ∨
    ∃ e con', con.receive = (.error e, con') ∧ con.flush.1 = .error e ∧ ¬Attempted (.error e) ∧
      con'.input = con.input ∧ Passes [] [] con con' := by
  rcases con.flush_cases with ⟨con₁, hf, hp, -, hpass⟩ | ⟨text, con₁, hf, hinput, hpass⟩
  · have hpending : ∀ {con' : Console}, con'.output = con₁.output → con'.pending = [] := by
      intro con' h
      rw [pending, h]
      exact hp
    rcases con₁.read_cases with ⟨b, con₂, hr, hout, hpass'⟩ | ⟨e, con₂, hr, hout, ha, hpass'⟩
    · exact Or.inl ⟨b, con₂, by rw [receive, hf]; exact hr, hpending hout, by rw [hf],
        hpass.trans hpass'⟩
    · exact Or.inr (Or.inl ⟨e, con₂, by rw [receive, hf]; exact hr, hpending hout, by rw [hf], ha,
        hpass.trans hpass'⟩)
  · exact Or.inr (Or.inr ⟨_, con₁, by rw [receive, hf], by rw [hf],
      not_attempted_outputFailed text, hinput, hpass⟩)

/-! ## Sequences of operations -/

/-- What can be asked of a console. -/
inductive Action where
  | send (value : UInt8)
  | receive
  | flush
  deriving DecidableEq, Repr

/-- What was asked of a console, and what it answered. -/
inductive Exchange where
  | send (value : UInt8) (answer : Except Error Unit)
  | receive (answer : Except Error UInt8)
  | flush (answer : Except Error Unit)

namespace Exchange

/-- The byte of a send that succeeded. -/
def given : Exchange → List UInt8
  | send v (.ok ()) => [v]
  | _ => []

/-- The byte of a receive that succeeded. -/
def got : Exchange → List UInt8
  | receive (.ok b) => [b]
  | _ => []

/-- Whether the answer was an error. -/
def failed : Exchange → Bool
  | send _ (.error _) | receive (.error _) | flush (.error _) => true
  | _ => false

theorem given_of_failed : ∀ {x : Exchange}, x.failed = true → x.given = []
  | send _ (.error _), _ => rfl
  | receive _, _ => rfl
  | flush _, _ => rfl

theorem got_of_failed : ∀ {x : Exchange}, x.failed = true → x.got = []
  | send _ _, _ => rfl
  | receive (.error _), _ => rfl
  | flush _, _ => rfl

end Exchange

/-- Asks one thing of a console. -/
def Action.perform (con : Console) : Action → Exchange × Console
  | .send v => (con.send v).map (.send v) id
  | .receive => con.receive.map .receive id
  | .flush => con.flush.map .flush id

/-- Asks some things of a console, one after the other. -/
def carryOut (con : Console) : List Action → List Exchange × Console
  | [] => ([], con)
  | action :: actions =>
    let (x, con') := action.perform con
    (carryOut con' actions).map (x :: ·) id

/-- The bytes of the sends that succeeded, in order. -/
def given (xs : List Exchange) : List UInt8 :=
  xs.flatMap Exchange.given

/-- The bytes of the receives that succeeded, in order. -/
def got (xs : List Exchange) : List UInt8 :=
  xs.flatMap Exchange.got

/-- One thing asked passes on the byte it is about if it succeeds, and nothing if it fails. -/
theorem Action.passes_perform (con : Console) (action : Action) :
    Passes (action.perform con).1.given (action.perform con).1.got con (action.perform con).2 := by
  cases action with
  | send v =>
    rcases con.send_cases v with ⟨con', h, hp⟩ | ⟨e, con', h, hp⟩
    · rw [perform, h]
      exact hp
    · rw [perform, h]
      exact hp
  | receive =>
    rcases con.receive_cases with ⟨b, con', h, -, -, hp⟩ | ⟨e, con', h, -, -, -, hp⟩ |
      ⟨e, con', h, -, -, -, hp⟩
    · rw [perform, h]
      exact hp
    · rw [perform, h]
      exact hp
    · rw [perform, h]
      exact hp
  | flush =>
    rcases con.flush_cases with ⟨con', h, -, -, hp⟩ | ⟨e, con', h, -, hp⟩
    · rw [perform, h]
      exact hp
    · rw [perform, h]
      exact hp

/-- A send that fails passes nothing on. -/
theorem passes_of_send_error {con con' : Console} {byte : UInt8} {e : Error}
    (h : con.send byte = (.error e, con')) : Passes [] [] con con' := by
  have hp := (Action.send byte).passes_perform con
  rw [Action.perform, h] at hp
  exact hp

/-- A receive that fails passes nothing on. -/
theorem passes_of_receive_error {con con' : Console} {e : Error}
    (h : con.receive = (.error e, con')) : Passes [] [] con con' := by
  have hp := Action.receive.passes_perform con
  rw [Action.perform, h] at hp
  exact hp

/-- Any sequence passes on what its members pass on, in order. -/
theorem passes_carryOut (con : Console) (actions : List Action) :
    Passes (given (con.carryOut actions).1) (got (con.carryOut actions).1) con
      (con.carryOut actions).2 := by
  induction actions generalizing con with
  | nil => exact passes_refl con
  | cons action actions ih => exact (action.passes_perform con).trans (ih _)

/-- **A console loses nothing, repeats nothing, and keeps the order.**  After any sequence of sends,
receives and flushes on a console that was just rewound:

* the counters are the numbers of sends and of receives that succeeded;
* the bytes received are the first bytes of the input, in order, and as many as were counted;
* what is in the sink, followed by what still waits, is what was there before and then the bytes of the
  sends that succeeded, in order;
* one more operation that fails changes none of this;
* one more receive answers with a byte, with the end of the input or with its failure exactly if its flush
  succeeds.  Nothing is left waiting then, and otherwise nothing is taken from the input. -/
theorem carryOut_accounting (con : Console) (actions : List Action) :
    let xs := (con.rewind.carryOut actions).1
    let con' := (con.rewind.carryOut actions).2
    con'.sent = (given xs).length ∧
      con'.received = (got xs).length ∧
      got xs = (con.supply con'.written.toList).take con'.received ∧
      con'.taken = con.taken ++ given xs ∧
      (∀ action : Action, (action.perform con').1.failed = true →
        (action.perform con').2.taken = con'.taken ∧
          (action.perform con').2.sent = con'.sent ∧
          (action.perform con').2.received = con'.received) ∧
      (Attempted con'.receive.1 ↔ con'.flush.1 = .ok ()) ∧
      (Attempted con'.receive.1 → con'.receive.2.pending = []) ∧
      (¬Attempted con'.receive.1 → con'.receive.2.input = con'.input) := by
  intro xs con'
  have hpass : Passes (given xs) (got xs) con.rewind con' := passes_carryOut con.rewind actions
  have hsent : con'.sent = (given xs).length := hpass.sent.trans (Nat.zero_add _)
  have hreceived : con'.received = (got xs).length := hpass.received.trans (Nat.zero_add _)
  refine ⟨hsent, hreceived, ?_, hpass.taken, fun action hfailed ↦ ?_, ?_⟩
  · have hsupply : got xs ++ con'.supply con'.written.toList = con.supply con'.written.toList :=
      hpass.supply _ (List.prefix_refl _)
    rw [← hsupply, hreceived, List.take_left]
  · have h := action.passes_perform con'
    rw [Exchange.given_of_failed hfailed, Exchange.got_of_failed hfailed] at h
    exact ⟨h.taken.trans (List.append_nil _), h.sent, h.received⟩
  · rcases con'.receive_cases with ⟨b, con₁, h, hp, hf, -⟩ | ⟨e, con₁, h, hp, hf, ha, -⟩ |
      ⟨e, con₁, h, hf, ha, hi, -⟩
    · rw [h, hf]
      exact ⟨iff_of_true (.byte b) rfl, fun _ ↦ hp, fun hn ↦ absurd (.byte b) hn⟩
    · rw [h, hf]
      exact ⟨iff_of_true ha rfl, fun _ ↦ hp, fun hn ↦ absurd ha hn⟩
    · rw [h, hf]
      exact ⟨iff_of_false ha nofun, fun hy ↦ absurd hy ha, fun _ ↦ hi⟩

end Console

end TapeMachine
