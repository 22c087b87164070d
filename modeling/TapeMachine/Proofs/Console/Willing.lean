import TapeMachine.Proofs.Emulator.Buffering

/-!
# Consoles that go on until their input ends

A console has many ways to fail, and most programs are written as if it had only one: that the input comes to
its end.  This file is about consoles of which that is true.  The input has its own bytes, and then says that
it is closed; the output takes every byte, through whatever buffer.

Such a console is known by four numbers and lists, its books: the bytes it has left to give, those it has taken,
and the two counters (`Console.Books`).  Each operation changes the books in one way only (`Books.send`,
`Books.receive`, `Books.receive_closed`), so that a program can be followed with nothing but the books in hand.
-/

set_option autoImplicit false
namespace TapeMachine

/-- The input ends, and does so without a failure. -/
def Ending.Closes (e : Ending) : Prop :=
  e = .closed ∨ e = .cutShort

namespace Console

/-- A byte that is sent to an output that never fails is taken. -/
theorem send_of_willing {con : Console} {out : Output} (hcon : con.output = some out) (hout : out.Willing)
    (byte : UInt8) : ∃ out', con.send byte =
      (.ok (), { con with output := some out', sent := con.sent + 1 }) ∧ out'.Willing ∧
        out'.taken = out.taken ++ [byte] := by
  obtain ⟨input, _, received, sent⟩ := con
  obtain rfl := hcon
  obtain ⟨out', hwrite, hout', htaken⟩ := hout.write byte
  exact ⟨out', by simp only [send, hwrite], hout', htaken⟩

/-- A machine speaks to the console that it was given. -/
theorem send_some {con con' : Console} {byte : UInt8} {answer : Except Error Unit}
    (h : con.send byte = (answer, con')) : Channel.send byte (some con) = (answer, some con') :=
  congrArg (Prod.map id some) h

theorem receive_some {con con' : Console} {answer : Except Error UInt8}
    (h : con.receive = (answer, con')) : Channel.receive (some con) = (answer, some con') :=
  congrArg (Prod.map id some) h

/-- A console that still gives the bytes `rest` and then is closed, and whose output never fails and has taken
the bytes `taken`. -/
structure Books (rest taken : List UInt8) (received sent : Nat) (con : Console) : Prop where
  input : ∃ ending : Ending, ending.Closes ∧ con.input = some ⟨rest, ending⟩
  output : ∃ out, con.output = some out ∧ out.Willing ∧ out.taken = taken
  received_eq : con.received = received
  sent_eq : con.sent = sent

/-- A console that was just opened. -/
theorem books_fresh {ending : Ending} (hending : ending.Closes) (rest : List UInt8) {out : Output}
    (hout : out.Willing) :
    Books rest out.taken 0 0 { input := some ⟨rest, ending⟩, output := some out } :=
  ⟨⟨ending, hending, rfl⟩, ⟨out, rfl, hout, rfl⟩, rfl, rfl⟩

/-- Only an input that is fed by the output has anything to refill from. -/
theorem refill_of_closes {ending : Ending} (h : ending.Closes) (rest : List UInt8) (written : Array UInt8) :
    Input.refill ⟨rest, ending⟩ written = ⟨rest, ending⟩ := by
  rcases h with rfl | rfl <;> cases rest <;> rfl

namespace Books

variable {rest taken : List UInt8} {received sent : Nat} {con : Console}

/-- Where nothing waits, the sink holds all that was taken. -/
theorem written_eq (h : Books rest taken received sent con) (hp : con.pending = []) :
    con.written.toList = taken := by
  obtain ⟨out, hout, -, htaken⟩ := h.output
  rw [pending, hout] at hp
  rw [written, hout, ← htaken]
  exact (Output.taken_of_pending hp).symm

/-- A byte that is sent is taken. -/
theorem send (h : Books rest taken received sent con) (byte : UInt8) :
    ∃ con', con.send byte = (.ok (), con') ∧ Books rest (taken ++ [byte]) received (sent + 1) con' := by
  obtain ⟨hinput, ⟨out, hcon, hout, rfl⟩, rfl, rfl⟩ := h
  obtain ⟨out', hsend, hout', htaken⟩ := send_of_willing hcon hout byte
  exact ⟨_, hsend, hinput, ⟨out', rfl, hout', htaken⟩, rfl, rfl⟩

/-- Flushing succeeds, and changes nothing in the books. -/
theorem flush (h : Books rest taken received sent con) :
    ∃ con', con.flush = (.ok (), con') ∧ con'.pending = [] ∧ Books rest taken received sent con' := by
  obtain ⟨input, output, received, sent⟩ := con
  obtain ⟨hinput, ⟨out, rfl, hout, rfl⟩, rfl, rfl⟩ := h
  obtain ⟨out', hflush, hout', hpending, htaken⟩ := hout.flush
  refine ⟨⟨input, some out', received, sent⟩, ?_, hpending, hinput, ⟨out', rfl, hout', htaken⟩, rfl, rfl⟩
  simp only [Console.flush, hflush]

/-- As long as there is a byte left, the next one is given. -/
theorem receive {b : UInt8} (h : Books (b :: rest) taken received sent con) :
    ∃ con', con.receive = (.ok b, con') ∧ con'.pending = [] ∧
      Books rest taken (received + 1) sent con' := by
  obtain ⟨⟨_, output, received, sent⟩, hflush, hpending, ⟨ending, hending, rfl⟩, hout, rfl, rfl⟩ := h.flush
  refine ⟨⟨some ⟨rest, ending⟩, output, received + 1, sent⟩, ?_, hpending, ⟨ending, hending, rfl⟩, hout,
    rfl, rfl⟩
  simp only [Console.receive, hflush, Console.read, refill_of_closes hending, Input.next]

/-- When none is left, the input is closed. -/
theorem receive_closed (h : Books [] taken received sent con) :
    ∃ con', con.receive = (.error Condition.inputClosed, con') ∧ con'.pending = [] ∧
      Books [] taken received sent con' := by
  obtain ⟨⟨_, output, received, sent⟩, hflush, hpending, ⟨ending, hending, rfl⟩, hout, rfl, rfl⟩ := h.flush
  refine ⟨⟨some ⟨[], ending⟩, output, received, sent⟩, ?_, hpending, ⟨ending, hending, rfl⟩, hout, rfl, rfl⟩
  have herror : endError ending = Condition.inputClosed := by
    rcases hending with rfl | rfl <;> rfl
  simp only [Console.receive, hflush, Console.read, refill_of_closes hending, Input.next, herror]

end Books
end Console
end TapeMachine
