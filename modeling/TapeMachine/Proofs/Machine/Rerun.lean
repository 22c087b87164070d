import TapeMachine.Proofs.Machine.Faults
import TapeMachine.Proofs.Machine.Session

/-!
# Runs that have ended

A run ends because the machine has stopped, because its ticks are used up, or because an operator failed.  Here
it is shown that there is no way on from there: running or ticking the machine again gives the same answer and
changes nothing, neither the machine nor its console.

A machine that fails is left as it was (`tick_error_cases`), so it will try the same operator again, on what the
failure has left of the channel.  What has to be known is that the channel *refuses for good* (`Refuses`): a send
or a receive that failed fails in the same way when it is tried again, and leaves nothing changed.  For a console
this comes down to its streams.

* A sink that does not take a byte has not grown, and will not take it later.
* A buffer that cannot be emptied is stuck from then on.  A flush that has succeeded, on the other hand, leaves
  nothing for the next one to do.
* An input that has come to its end stays there; also if it is fed by the output, since by then all that was sent
  has been flushed.
-/

set_option autoImplicit false
namespace TapeMachine

/-- A channel that has refused to send or to receive will do so again, and is not changed by being asked. -/
structure Refuses (σ : Type) [Channel σ] : Prop where
  send : ∀ {v : UInt8} {c c' : σ} {e : Error},
    Channel.send v c = (.error e, c') → Channel.send v c' = (.error e, c')
  receive : ∀ {c c' : σ} {e : Error},
    Channel.receive c = (.error e, c') → Channel.receive c' = (.error e, c')

/-! ## Outputs -/

/-- A sink that refuses has not changed. -/
theorem Sink.eq_of_write_error {s s' : Sink} {bs : List UInt8} {e : String}
    (h : s.write bs = (.error e, s')) : s' = s := by
  rcases s.write_cases bs with hw | hw
  · rw [hw] at h
    cases h
  · rw [hw] at h
    cases h
    rfl

namespace Buffer

/-- A flush that fails leaves the buffer stuck. -/
theorem stuck_of_flush_error {b b' : Buffer} {e : String} (h : b.flush = (.error e, b')) :
    b'.stuck = some e := by
  obtain ⟨sink, size, pending, stuck⟩ := b
  cases stuck with
  | some e' =>
    cases h
    rfl
  | none =>
    simp only [flush, writeThrough] at h
    split at h
    · cases h
    · rcases sink.write_cases pending.toList with hw | hw
      · rw [hw] at h
        cases h
      · rw [hw] at h
        cases h
        rfl

theorem flush_of_stuck {b : Buffer} {e : String} (h : b.stuck = some e) : b.flush = (.error e, b) := by
  rw [flush, h]

theorem push_of_stuck {b : Buffer} {e : String} (h : b.stuck = some e) (byte : UInt8) :
    b.push byte = (.error e, b) := by
  rw [push, h]

/-- A second flush has nothing to do. -/
theorem flush_flush (b : Buffer) : b.flush.2.flush = b.flush := by
  obtain ⟨⟨answer, b'⟩, hf⟩ : ∃ r, b.flush = r := ⟨_, rfl⟩
  cases answer with
  | error e =>
    rw [hf]
    exact flush_of_stuck (stuck_of_flush_error hf)
  | ok =>
    obtain ⟨sink, size, pending, stuck⟩ := b
    cases stuck with
    | some e => cases hf
    | none =>
      by_cases hp : pending.isEmpty = true
      · simp only [flush, if_pos hp]
      · simp only [flush, if_neg hp, writeThrough] at hf ⊢
        rcases sink.write_cases pending.toList with hw | hw
        · rw [hw]
          rfl
        · rw [hw] at hf
          cases hf

/-- A byte that does not find room will not find any. -/
theorem push_again {b b' : Buffer} {byte : UInt8} {e : String} (h : b.push byte = (.error e, b')) :
    b'.push byte = (.error e, b') := by
  cases hs : b.stuck with
  | some e' =>
    rw [push_of_stuck hs] at h
    cases h
    exact push_of_stuck hs byte
  | none =>
    simp only [push, hs] at h
    split at h
    · cases h
    · obtain ⟨⟨answer, b₁⟩, hf⟩ : ∃ r, b.flush = r := ⟨_, rfl⟩
      rw [hf] at h
      cases answer with
      | ok => cases h
      | error e' =>
        cases h
        exact push_of_stuck (stuck_of_flush_error hf) byte

end Buffer

namespace Output

theorem flush_flush (out : Output) : out.flush.2.flush = out.flush := by
  cases out with
  | direct s => rfl
  | unflushable s e => rfl
  | buffered b =>
    have h := b.flush_flush
    simp only [flush, Prod.map]
    rw [h]

theorem write_again {out out' : Output} {byte : UInt8} {e : String}
    (h : out.write [byte] = (.error e, out')) : out'.write [byte] = (.error e, out') := by
  cases out with
  | direct s =>
    obtain ⟨⟨answer, s'⟩, hw⟩ : ∃ r, s.write [byte] = r := ⟨_, rfl⟩
    rw [write, hw] at h
    cases h
    obtain rfl := Sink.eq_of_write_error hw
    rw [write, hw]
    rfl
  | unflushable s text =>
    obtain ⟨⟨answer, s'⟩, hw⟩ : ∃ r, s.write [byte] = r := ⟨_, rfl⟩
    rw [write, hw] at h
    cases h
    obtain rfl := Sink.eq_of_write_error hw
    rw [write, hw]
    rfl
  | buffered b =>
    obtain ⟨⟨answer, b'⟩, hp⟩ : ∃ r, b.push byte = r := ⟨_, rfl⟩
    rw [write, Buffer.write, hp] at h
    cases h
    rw [write, Buffer.write, Buffer.push_again hp]
    rfl

end Output

/-! ## Inputs -/

/-- An input that has nothing to give has nothing to give the next time. -/
theorem Input.next_again {s s' : Input} {written : Array UInt8} {ending : Ending}
    (h : (s.refill written).next = (.error ending, s')) :
    (s'.refill written).next = (.error ending, s') := by
  obtain ⟨rest, ending'⟩ := s
  cases rest with
  | cons b rest => cases ending' <;> cases h
  | nil =>
    cases ending' with
    | closed | cutShort | failed text =>
      cases h
      rfl
    | written taken =>
      simp only [refill, next] at h
      split at h
      · cases h
      · rename_i hblock
        cases h
        simp only [hblock, refill, next, List.length_nil, Nat.add_zero]

/-! ## Consoles -/

namespace Console

theorem flush_flush (con : Console) : con.flush.2.flush = con.flush := by
  obtain ⟨input, output, received, sent⟩ := con
  cases output with
  | none => rfl
  | some out =>
    have h := out.flush_flush
    obtain ⟨⟨answer, out'⟩, hf⟩ : ∃ r, out.flush = r := ⟨_, rfl⟩
    rw [hf] at h
    cases answer <;> simp only [flush, hf] <;> rw [show out'.flush = _ from h]

/-- Whether there is something to flush depends on the output alone. -/
theorem flush_of_output_eq {con con' : Console} (hout : con'.output = con.output)
    (h : con.flush = (.ok (), con)) : con'.flush = (.ok (), con') := by
  obtain ⟨input, output, received, sent⟩ := con
  obtain ⟨input', output', received', sent'⟩ := con'
  obtain rfl : output' = output := hout
  cases output' with
  | none => rfl
  | some out =>
    obtain ⟨⟨answer, out'⟩, hf⟩ : ∃ r, out.flush = r := ⟨_, rfl⟩
    simp only [flush, hf] at h ⊢
    cases answer with
    | ok =>
      cases h
      rfl
    | error e => cases h

theorem send_again {con con' : Console} {byte : UInt8} {e : Error}
    (h : con.send byte = (.error e, con')) : con'.send byte = (.error e, con') := by
  obtain ⟨input, output, received, sent⟩ := con
  cases output with
  | none =>
    cases h
    rfl
  | some out =>
    obtain ⟨⟨answer, out'⟩, hw⟩ : ∃ r, out.write [byte] = r := ⟨_, rfl⟩
    simp only [send, hw] at h
    cases answer with
    | ok => cases h
    | error text =>
      cases h
      simp only [send, Output.write_again hw]

theorem read_again {con con' : Console} {e : Error} (h : con.read = (.error e, con')) :
    con'.read = (.error e, con') ∧ con'.output = con.output := by
  obtain ⟨input, output, received, sent⟩ := con
  cases input with
  | none =>
    cases h
    exact ⟨rfl, rfl⟩
  | some input =>
    obtain ⟨written, hwritten⟩ : ∃ w, written ⟨some input, output, received, sent⟩ = w := ⟨_, rfl⟩
    obtain ⟨⟨answer, input'⟩, hn⟩ : ∃ r, (input.refill written).next = r := ⟨_, rfl⟩
    simp only [read, hwritten, hn] at h
    cases answer with
    | ok b => cases h
    | error ending =>
      cases h
      have hwritten' : Console.written ⟨some input', output, received, sent⟩ = written := hwritten
      simp only [read, hwritten', Input.next_again hn, and_self]

theorem receive_again {con con' : Console} {e : Error} (h : con.receive = (.error e, con')) :
    con'.receive = (.error e, con') := by
  have hflush := con.flush_flush
  obtain ⟨⟨answer, con₁⟩, hf⟩ : ∃ r, con.flush = r := ⟨_, rfl⟩
  rw [receive, hf] at h
  rw [hf] at hflush
  cases answer with
  | error text =>
    cases h
    rw [receive, show con'.flush = _ from hflush]
  | ok =>
    -- what was pending is flushed, and the read has not touched the output
    obtain ⟨hread, hout⟩ := read_again h
    have hidle : con'.flush = (.ok (), con') := flush_of_output_eq hout hflush
    rw [receive, hidle]
    exact hread

theorem refuses : Refuses Console where
  send := send_again
  receive := receive_again

end Console

/-! ## Ticks and runs -/

namespace Outcome

/-- What a tick answers once a run has come to an end.  A machine that stopped says so, without an error. -/
def lasting : Outcome Unit → Outcome Bool
  | .ok () => .ok true
  | .error e => .error e
  | .offTape => .offTape

/-- What a tick or a run answers once a run has come to an end. -/
def answer (o : Outcome Unit) : Operation → Answer
  | .run _ => .run (some o)
  | _ => .tick o.lasting

end Outcome

namespace Machine

variable {σ : Type} [Channel σ]

/-- An operator that failed fails again. -/
theorem Fails.execute_eq {m : Machine} {c c' : σ} {op : Operator} {e : Error} (hσ : Refuses σ)
    (h : Fails m c op e c') : m.execute op c' = ⟨m, c', .error e⟩ := by
  cases h with
  | loop hcell hp => simp only [execute, onCell, hcell, if_true, jump, hp]
  | again hcell hv hp => simp only [execute, onCell, hcell, if_neg hv, jump, hp]
  | output hcell hs => simp only [execute, sendCell, onCell, hcell, hσ.send hs]
  | input hr => simp only [execute, receiveCell, hσ.receive hr]

/-- **A tick that failed fails again**, and changes nothing. -/
theorem tick_again {m m' : Machine} {c c' : σ} {e : Error} (hσ : Refuses σ)
    (h : m.tick c = ⟨m', c', .error e⟩) : m'.tick c' = ⟨m', c', .error e⟩ := by
  obtain ⟨hr, rfl, ⟨hl, rfl, rfl⟩ | ⟨hl, cause, rfl, hfails⟩⟩ := tick_error_cases h
  · exact h
  · rw [tick_of_running hr hl, hfails.execute_eq hσ]
    rfl

/-- What a run leaves is not changed by a tick. -/
theorem Ends.tick_eq {k : Nat} {m m' : Machine} {c c' : σ} {o : Outcome Unit} (hσ : Refuses σ)
    (h : Ends k m c m' c' o) (ho : o ≠ .offTape) : m'.tick c' = ⟨m', c', o.lasting⟩ := by
  induction h with
  | stop h => exact tick_of_stopped h _
  | error h => exact tick_again hσ h
  | offTape => exact absurd rfl ho
  | tick _ _ _ ih => exact ih ho

/-- A run consists of ticks, so what a tick does not change, a run does not change. -/
theorem runFor_of_tick_eq {m : Machine} {c : σ} {o : Outcome Unit}
    (h : m.tick c = ⟨m, c, o.lasting⟩) (n : Nat) : m.runFor (n + 1) c = ⟨m, c, some o⟩ := by
  rw [runFor, h]
  cases o <;> rfl

theorem performAll_of_tick_eq {m : Machine} {c : σ} {o : Outcome Unit}
    (h : m.tick c = ⟨m, c, o.lasting⟩) (ops : List Operation)
    (hops : ∀ op ∈ ops, op = .tick ∨ ∃ n, op = .run (n + 1)) :
    performAll m c ops = ⟨m, c, ops.map o.answer⟩ := by
  induction ops with
  | nil => rfl
  | cons op ops ih =>
    have hop : op.perform m c = ⟨m, c, [o.answer op]⟩ := by
      rcases hops op List.mem_cons_self with rfl | ⟨n, rfl⟩
      · rw [Operation.perform, h]
        rfl
      · rw [Operation.perform, runFor_of_tick_eq h]
        rfl
    have hrest := ih fun op' hmem ↦ hops op' (List.mem_cons_of_mem op hmem)
    simp only [performAll, hop, hrest, List.map_cons, List.singleton_append]

end Machine

open Machine

/-- **A run that has ended stays ended.**  Whatever machine is run on whatever console, once the run has
come to an end, running it again comes to the same end.  So does every sequence of further ticks and runs:
all of them give the same answer, which is that the machine is done if the run succeeded, and the same
error if it failed; and none of them changes the machine or the console, its counters and its streams
included.

Asking for a byte outside the tape is no way for a run to return.  A machine that was built on a tape whose
length is a word never does so (`Sound.ends_ne_offTape`). -/
theorem returns_again {m m' : Machine} {con con' : Console} {o : Outcome Unit}
    (h : m.Returns con m' con' o) (ho : o ≠ .offTape) :
    m'.Returns con' m' con' o ∧
      ∀ ops : List Operation, (∀ op ∈ ops, op = .tick ∨ ∃ n, op = .run (n + 1)) →
        performAll m' con' ops = ⟨m', con', ops.map o.answer⟩ := by
  obtain ⟨k, hends⟩ := exists_ends_iff_returns.mpr h
  have htick := hends.tick_eq Console.refuses ho
  exact ⟨⟨1, runFor_of_tick_eq htick 0⟩, performAll_of_tick_eq htick⟩

/-- The program `,` on a console with a prompt in its buffer and a full sink: the flush before the read fails, the
buffer is stuck from then on, and the input is never read. -/
theorem returns_again_stuck :
    let m := fresh [0x2c] 1 {}
    let con : Console :=
      { input := some { rest := [0x41] }
        output := some (.buffered
          { sink := { limit := some 0, error := "full" }, size := 4, pending := #[0x3f] }) }
    let con' : Console :=
      { input := some { rest := [0x41] }
        output := some (.buffered
          { sink := { limit := some 0, error := "full" }, size := 4, pending := #[0x3f]
            stuck := some "full" }) }
    let e : Error := .fault 1 .input (Console.failure .outputFailed "full")
    m.Returns con m con' (.error e) ∧ m.Returns con' m con' (.error e) ∧
      performAll m con' [.tick, .run 5, .tick]
        = ⟨m, con', [.tick (.error e), .run (some (.error e)), .tick (.error e)]⟩ := by
  intro m con con' e
  have hreturns : m.Returns con m con' (.error e) := ⟨1, rfl⟩
  obtain ⟨hagain, hperform⟩ := returns_again hreturns nofun
  refine ⟨hreturns, hagain, hperform [.tick, .run 5, .tick] ?_⟩
  intro op hop
  simp only [List.mem_cons, List.not_mem_nil, or_false] at hop
  rcases hop with rfl | rfl | rfl
  · exact Or.inl rfl
  · exact Or.inr ⟨4, rfl⟩
  · exact Or.inl rfl

end TapeMachine
