import TapeMachine.Proofs.Channel.Agreement
import TapeMachine.Proofs.Channel.Recording
import TapeMachine.Proofs.Console.Accounting
import TapeMachine.Proofs.Machine.Regions

/-!
# A run does not know what it has not read

A run that asks for at most `k` bytes depends on the first `k` bytes of its input, and on nothing behind
them: not on what follows, nor on how the input ends.

The argument compares two runs of one machine, on inputs that begin with the same bytes.  A console looks
at its input only to read from it, and a read looks at no more than the next byte (`receive_of_cons`).  So
as long as there is a byte left that the inputs have in common, the two consoles answer alike, and differ
afterwards only in what lies behind the common part.  `Forked` is this state of affairs.  It cannot be kept
up for ever, since the common part may be used up.  But every byte that is taken from it was asked for, and
a `Recording` counts the calls: as long as these are fewer than the common bytes, one of the bytes is left
(`Forked.receive`).  An attempt that fails is a call as well, and takes nothing.
-/

set_option autoImplicit false
namespace TapeMachine

/-! ## Calls are counted -/

/-- How often a byte was asked for. -/
def Call.receives (calls : List Call) : Nat :=
  calls.countP fun
    | .receive _ => true
    | .send _ _ => false

theorem Call.receives_le_of_prefix {calls calls' : List Call} (h : calls <+: calls') :
    receives calls ≤ receives calls' :=
  h.sublist.countP_le

theorem Call.receives_append_send (calls : List Call) (v : UInt8) (answer : Except Error Unit) :
    receives (calls ++ [.send v answer]) = receives calls := by
  simp [receives]

theorem Call.receives_append_receive (calls : List Call) (answer : Except Error UInt8) :
    receives (calls ++ [.receive answer]) = receives calls + 1 := by
  simp [receives]

section Recording

variable {σ : Type} [Channel σ]

theorem Recording.send_eq (v : UInt8) (r : Recording σ) :
    Channel.send v r = ((Channel.send v r.channel).1,
      ⟨(Channel.send v r.channel).2, r.calls ++ [.send v (Channel.send v r.channel).1]⟩) :=
  rfl

theorem Recording.receive_eq (r : Recording σ) :
    Channel.receive r = ((Channel.receive r.channel).1,
      ⟨(Channel.receive r.channel).2, r.calls ++ [.receive (Channel.receive r.channel).1]⟩) :=
  rfl

/-- A recording answers like the channel inside it, and forgets nothing. -/
theorem Recording.agrees_inside (calls : List Call) :
    Channel.Agrees fun (r : Recording σ) (c : σ) ↦ r.channel = c ∧ calls <+: r.calls where
  receive := by
    rintro r _ ⟨rfl, hcalls⟩
    exact ⟨rfl, rfl, hcalls.trans (List.prefix_append _ _)⟩
  send := by
    rintro v r _ ⟨rfl, hcalls⟩
    exact ⟨rfl, rfl, hcalls.trans (List.prefix_append _ _)⟩

namespace Machine

theorem calls_runFor (n : Nat) (m : Machine) (r : Recording σ) :
    r.calls <+: (m.runFor n r).channel.calls := by
  have hagree := agree_runFor (Recording.agrees_inside r.calls) n m ⟨rfl, List.prefix_refl _⟩
  exact hagree.channel.2

/-- A run that is recorded comes to the end that it comes to without. -/
theorem Returns.of_recording {m m' : Machine} {r r' : Recording σ} {o : Outcome Unit}
    (h : m.Returns r m' r' o) : m.Returns r.channel m' r'.channel o := by
  obtain ⟨n, hn⟩ := h
  refine ⟨n, ?_⟩
  have hagree : (m.runFor n r).Agree _ (m.runFor n r.channel) :=
    agree_runFor (Recording.agrees_inside []) n m ⟨rfl, List.nil_prefix⟩
  rw [hn] at hagree
  obtain ⟨hmachine, ⟨hchannel, -⟩, houtcome⟩ := hagree
  generalize m.runFor n r.channel = run at hmachine hchannel houtcome
  obtain ⟨m₁, c₁, o₁⟩ := run
  cases hmachine
  cases hchannel
  cases houtcome
  rfl

omit [Channel σ] in
theorem channel_conclude (ip : Int) (op : Operator) (s : Step σ Unit) :
    (s.conclude ip op).channel = s.channel := by
  obtain ⟨m, c, o⟩ := s
  cases o <;> rfl

/-- Whatever is done with the byte that was received, the channel has given it. -/
theorem channel_receiveCell (m : Machine) (c : σ) :
    (m.receiveCell c).channel = (Channel.receive c).2 := by
  rw [receiveCell]
  generalize Channel.receive c = a
  obtain ⟨answer, c'⟩ := a
  cases answer with
  | ok b =>
    simp only [mapCell, onCell]
    split <;> rfl
  | error e => rfl

/-- A tick that asks for a byte makes one call for it. -/
theorem receives_tick {m : Machine} (h : m.asks = true) (r : Recording σ) :
    Call.receives (m.tick r).channel.calls = Call.receives r.calls + 1 := by
  simp only [asks, Bool.and_eq_true, Bool.not_eq_true', decide_eq_true_eq] at h
  obtain ⟨⟨hr, hl⟩, hop⟩ := h
  have hchannel : (m.tick r).channel = (Channel.receive r).2 := by
    rw [tick_of_running hr hl, hop, channel_conclude]
    exact m.channel_receiveCell r
  rw [hchannel]
  exact Call.receives_append_receive _ _

/-- The calls of the next tick are among those of a run. -/
theorem receives_tick_le (n : Nat) (m : Machine) (r : Recording σ) :
    Call.receives (m.tick r).channel.calls ≤ Call.receives (m.runFor (n + 1) r).channel.calls := by
  rw [runFor]
  generalize m.tick r = s
  obtain ⟨m', r', o⟩ := s
  rcases o with (_ | _) | e | _
  · exact Call.receives_le_of_prefix (m'.calls_runFor n r')
  · exact Nat.le_refl _
  · exact Nat.le_refl _
  · exact Nat.le_refl _

end Machine

end Recording

/-! ## Consoles that read from a fork -/

namespace Console

/-- The same console with another input. -/
def reading (con : Console) (input : Input) : Console :=
  { con with input := some input }

/-- A flush does not look at the input. -/
theorem flush_reading (con : Console) (input : Input) :
    (con.reading input).flush = (con.flush.1, con.flush.2.reading input) := by
  obtain ⟨_, output, received, sent⟩ := con
  cases output with
  | none => rfl
  | some out =>
    simp only [reading, flush]
    generalize out.flush = a
    obtain ⟨answer, out'⟩ := a
    cases answer <;> rfl

/-- Neither does a send. -/
theorem send_reading (con : Console) (input : Input) (byte : UInt8) :
    (con.reading input).send byte = ((con.send byte).1, (con.send byte).2.reading input) := by
  obtain ⟨_, output, received, sent⟩ := con
  cases output with
  | none => rfl
  | some out =>
    simp only [reading, send]
    generalize out.write [byte] = a
    obtain ⟨answer, out'⟩ := a
    cases answer <;> rfl

theorem received_flush (con : Console) : con.flush.2.received = con.received :=
  (Action.flush.passes_perform con).received

theorem received_send (con : Console) (byte : UInt8) :
    (con.send byte).2.received = con.received :=
  ((Action.send byte).passes_perform con).received

/-- A read looks at the next byte, and at nothing behind it. -/
theorem receive_of_cons (con : Console) (byte : UInt8) (rest : List UInt8) (ending : Ending) :
    (con.reading ⟨byte :: rest, ending⟩).receive =
      match con.flush with
      | (.ok (), con') =>
        (.ok byte, { con' with received := con'.received + 1 }.reading ⟨rest, ending⟩)
      | (.error e, con') => (.error e, con'.reading ⟨byte :: rest, ending⟩) := by
  rw [receive, flush_reading]
  generalize con.flush = a
  obtain ⟨answer, con'⟩ := a
  cases answer with
  | ok => rfl
  | error e => rfl

end Console

/-- Recorded consoles that have read from inputs with a common beginning `w`, and so far from `w` only.
What was read is not longer than the calls that asked for it, and the rest of `w` is still to come, before
`x` in one of them and before `y` in the other.  At first `k` bytes had been received. -/
structure Forked (w : List UInt8) (k : Nat) (x y : Input) (r s : Recording Console) : Prop where
  calls : r.calls = s.calls
  consoles : ∃ (got rest : List UInt8) (con : Console), w = got ++ rest ∧
    got.length ≤ Call.receives r.calls ∧ con.received = k + got.length ∧
    r.channel = con.reading ⟨rest ++ x.rest, x.ending⟩ ∧
    s.channel = con.reading ⟨rest ++ y.rest, y.ending⟩

namespace Forked

variable {w : List UInt8} {k : Nat} {x y : Input} {r s : Recording Console}

theorem send (h : Forked w k x y r s) (byte : UInt8) :
    Channel.Alike (Forked w k x y) (Channel.send byte r) (Channel.send byte s) := by
  obtain ⟨hcalls, got, rest, con, hw, hgot, hreceived, hr, hs⟩ := h
  have hsend : ∀ input : Input, Channel.send byte (con.reading input) =
      ((con.send byte).1, (con.send byte).2.reading input) := fun input ↦ con.send_reading input byte
  rw [Recording.send_eq, Recording.send_eq, hr, hs, hsend, hsend, hcalls]
  refine ⟨rfl, rfl, got, rest, (con.send byte).2, hw, ?_, ?_, rfl, rfl⟩
  · rw [Call.receives_append_send, ← hcalls]
    exact hgot
  · exact (con.received_send byte).trans hreceived

/-- **One more byte is read alike** if fewer were asked for than the inputs have in common. -/
theorem receive (h : Forked w k x y r s) (hasked : Call.receives r.calls < w.length) :
    Channel.Alike (Forked w k x y) (Channel.receive r) (Channel.receive s) := by
  obtain ⟨hcalls, got, rest, con, rfl, hgot, hreceived, hr, hs⟩ := h
  cases rest with
  | nil =>
    rw [List.append_nil] at hasked
    omega
  | cons b rest =>
    have hreceive : ∀ input : Input,
        Channel.receive (con.reading ⟨b :: rest ++ input.rest, input.ending⟩) = _ :=
      fun input ↦ con.receive_of_cons b (rest ++ input.rest) input.ending
    obtain ⟨⟨answer, con'⟩, hf⟩ : ∃ a, con.flush = a := ⟨_, rfl⟩
    have hkept : con'.received = con.received := by
      rw [← con.received_flush, hf]
    rw [Recording.receive_eq, Recording.receive_eq, hr, hs, hreceive, hreceive, hcalls, hf]
    cases answer with
    | ok =>
      refine ⟨rfl, rfl, got ++ [b], rest, { con' with received := con'.received + 1 }, ?_, ?_, ?_, rfl, rfl⟩
      · simp
      · rw [Call.receives_append_receive, ← hcalls, List.length_append]
        exact Nat.add_le_add_right hgot 1
      · simp only [List.length_append, List.length_singleton]
        omega
    | error e =>
      refine ⟨rfl, rfl, got, b :: rest, con', rfl, ?_, hkept.trans hreceived, rfl, rfl⟩
      rw [Call.receives_append_receive, ← hcalls]
      omega

/-- A tick keeps to the fork, as long as it does not ask for too much. -/
theorem tick (h : Forked w k x y r s) {m : Machine}
    (hasked : Call.receives (m.tick r).channel.calls ≤ w.length) :
    (m.tick r).Agree (Forked w k x y) (m.tick s) := by
  refine m.agree_tick_of_alike h h.send fun hasks ↦ h.receive ?_
  have hcount := Machine.receives_tick hasks r
  omega

/-- **So does a run.** -/
theorem runFor (h : Forked w k x y r s) {n : Nat} {m : Machine}
    (hasked : Call.receives (m.runFor n r).channel.calls ≤ w.length) :
    (m.runFor n r).Agree (Forked w k x y) (m.runFor n s) := by
  refine Machine.agree_runFor_of_tick
    (P := fun n m r ↦ Call.receives (m.runFor n r).channel.calls ≤ w.length) ?_ ?_ n m h hasked
  · intro n m r s h hasked
    exact h.tick (Nat.le_trans (m.receives_tick_le n r) hasked)
  · intro n m m' r r' ht hasked
    rw [Machine.runFor, ht] at hasked
    exact hasked

end Forked

/-! ## Runs on inputs with a common beginning -/

namespace Machine

/-- **A run depends on the bytes it asked for only.**  Take any machine, on a console whose input begins
with `w`, and suppose that it comes to an end and has asked for a byte at most as often as there are bytes in
`w`, be it with success or without.  Then it has read a part of `w`, one byte for each that the console
counts, and left the rest.  On an input that begins with `w` and goes on and ends in any other way, it comes
to the same end, with the same machine and the same calls on the way; and the console that it leaves is the
same too, but for the input, which is what follows the bytes that were read. -/
theorem returns_of_same_beginning {m m' : Machine} {con : Console} {w x : List UInt8} {ending : Ending}
    {r : Recording Console} {o : Outcome Unit}
    (h : m.Returns (Recording.start (con.reading ⟨w ++ x, ending⟩)) m' r o)
    (hasked : Call.receives r.calls ≤ w.length) (y : List UInt8) (ending' : Ending) :
    ∃ got rest : List UInt8, w = got ++ rest ∧
      r.channel.received = con.received + got.length ∧
      r.channel.input = some ⟨rest ++ x, ending⟩ ∧
      m.Returns (con.reading ⟨w ++ x, ending⟩) m' r.channel o ∧
      m.Returns (Recording.start (con.reading ⟨w ++ y, ending'⟩)) m'
        { channel := r.channel.reading ⟨rest ++ y, ending'⟩, calls := r.calls : Recording Console } o ∧
      m.Returns (con.reading ⟨w ++ y, ending'⟩) m' (r.channel.reading ⟨rest ++ y, ending'⟩) o := by
  obtain ⟨n, hn⟩ := h
  have hstart : Forked w con.received ⟨x, ending⟩ ⟨y, ending'⟩
      (Recording.start (con.reading ⟨w ++ x, ending⟩)) (Recording.start (con.reading ⟨w ++ y, ending'⟩)) :=
    ⟨rfl, [], w, con, rfl, Nat.zero_le _, rfl, rfl, rfl⟩
  have hagree := hstart.runFor (n := n) (m := m) (by rw [hn]; exact hasked)
  rw [hn] at hagree
  obtain ⟨⟨m₁, s, o₁⟩, hs⟩ :
      ∃ run, m.runFor n (Recording.start (con.reading ⟨w ++ y, ending'⟩)) = run := ⟨_, rfl⟩
  rw [hs] at hagree
  obtain ⟨rfl, ⟨hcalls, got, rest, con', hw, -, hreceived, hr, hs'⟩, rfl⟩ := hagree
  obtain ⟨c, calls⟩ := r
  obtain ⟨c', calls'⟩ := s
  obtain rfl : calls = calls' := hcalls
  obtain rfl : c = con'.reading ⟨rest ++ x, ending⟩ := hr
  obtain rfl : c' = con'.reading ⟨rest ++ y, ending'⟩ := hs'
  have hreturns : m.Returns (Recording.start (con.reading ⟨w ++ y, ending'⟩)) m' _ o := ⟨n, hs⟩
  have hreturnsx : m.Returns (Recording.start (con.reading ⟨w ++ x, ending⟩)) m' _ o := ⟨n, hn⟩
  exact ⟨got, rest, hw, hreceived, rfl, hreturnsx.of_recording, hreturns, hreturns.of_recording⟩

/-- The program `,.` asks for one byte.  After an `A`, it makes no difference whether a `B` follows or a
stream that fails. -/
theorem returns_of_same_beginning_echo :
    let m := fresh [0x2c, 0x2e] 1 {}
    let con : Console := { output := some (.direct {}) }
    let run := m.runFor 4 (Recording.start (con.reading ⟨[0x41, 0x42], .closed⟩))
    m.Returns (Recording.start (con.reading ⟨[0x41] ++ [0x42], .closed⟩)) run.machine run.channel (.ok ()) ∧
      Call.receives run.channel.calls = 1 ∧ run.channel.channel.written = #[0x41] ∧
      m.Returns (con.reading ⟨[0x41] ++ [], .failed "gone"⟩) run.machine
        (run.channel.channel.reading ⟨[], .failed "gone"⟩) (.ok ()) := by
  intro m con run
  have hrun : m.Returns (Recording.start (con.reading ⟨[0x41] ++ [0x42], .closed⟩))
      run.machine run.channel (.ok ()) := ⟨4, rfl⟩
  have hasked : Call.receives run.channel.calls = 1 := rfl
  obtain ⟨got, rest, hw, hgot, -, -, -, hother⟩ :=
    returns_of_same_beginning (w := [0x41]) hrun (Nat.le_of_eq hasked) [] (.failed "gone")
  obtain rfl : rest = [] := by
    have hread : 1 = 0 + got.length := hgot
    have hlength := congrArg List.length hw
    rw [List.length_append, List.length_singleton] at hlength
    exact List.eq_nil_of_length_eq_zero (by omega)
  exact ⟨hrun, hasked, rfl, hother⟩

end Machine
end TapeMachine
