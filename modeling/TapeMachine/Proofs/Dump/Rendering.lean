import TapeMachine.Proofs.Dump.Rows
import TapeMachine.Proofs.Emulator.Buffering

/-!
# Dumps can be written

A snapshot need not fit together, and then it cannot be read.  But the snapshot of a tape can
(`Tape.cells?_snapshot`).  So a tape always has a dump, and an output that takes every byte has taken its text
when the last row was written (`exists_render?`).

The rows are written one at a time, and the output decides where a failure cuts them short.  What is written
without a failure is always the whole text, be it to a buffer or past it (`Renders`).
-/

set_option autoImplicit false
namespace TapeMachine

/-! ## Rows -/

theorem Text.encode_append (s t : String) : encode (s ++ t) = encode s ++ encode t := by
  simp [encode]

namespace Dump

/-- Rows that are written one by one add up to their text. -/
theorem writeRows_direct (rows : List String) {sink : Sink} (h : sink.limit = none) :
    writeRows rows (.direct sink) =
      (.ok (), .direct { sink with bytes := sink.bytes ++ Text.encode (String.join rows) }) := by
  induction rows generalizing sink with
  | nil => simp [writeRows, Text.encode]
  | cons row rest ih =>
    rw [writeRows, Output.write, Sink.write_of_limit h]
    have hrest := @ih { sink with bytes := sink.bytes ++ Text.encode row } h
    have hbytes : sink.bytes ++ Text.encode row ++ Text.encode (String.join rest) =
        sink.bytes ++ Text.encode (String.join (row :: rest)) := by
      apply Array.toList_inj.mp
      simp [Text.encode_append]
    rw [← hbytes]
    exact hrest

/-- **A tape always has a dump**, and to write it adds its text to what was written before. -/
theorem exists_render? (color : Bool) (t : Tape) (a : Tape.Address) :
    ∃ text, text? color (t.snapshot a) = some text ∧
      ∀ sink : Sink, sink.limit = none →
        ∃ sink', render? color (t.snapshot a) (.direct sink) = some (.ok (), .direct sink') ∧
          sink'.bytes.toList = sink.bytes.toList ++ Text.encode text := by
  obtain ⟨rows, hrows⟩ : ∃ rows, rows? color (t.snapshot a) = some rows :=
    ⟨_, rows?_snapshot color t a⟩
  refine ⟨String.join rows, by rw [text?, hrows, Option.map_some], fun sink h ↦ ?_⟩
  refine ⟨{ sink with bytes := sink.bytes ++ Text.encode (String.join rows) }, ?_, by simp⟩
  rw [render?, hrows, Option.map_some, writeRows_direct rows h]

end Dump

/-! ## Outputs of every kind -/

namespace Buffer

theorem write_cons_cons (b : Buffer) (byte next : UInt8) (more : List UInt8) :
    b.write (byte :: next :: more) =
      match b.push byte with
      | (.ok (), b) => b.write (next :: more)
      | failed => failed :=
  rfl

theorem took_of_write {b b' : Buffer} {bs : List UInt8} (h : b.write bs = (.ok (), b')) :
    Output.Took bs (.buffered b) (.buffered b') := by
  induction bs generalizing b with
  | nil =>
    obtain ⟨-, rfl⟩ := Prod.mk.inj h
    exact Output.took_refl _
  | cons byte more ih =>
    rcases b.push_cases byte with ⟨b₁, hpush, htook⟩ | ⟨e, b₁, hpush, -⟩
    · cases more with
      | nil =>
        cases hpush.symm.trans h
        exact htook
      | cons =>
        rw [write_cons_cons, hpush] at h
        exact htook.trans (ih h)
    · cases more with
      | nil => cases hpush.symm.trans h
      | cons =>
        rw [write_cons_cons, hpush] at h
        cases h

theorem Willing.write {b : Buffer} (h : b.Willing) (bs : List UInt8) :
    ∃ b', b.write bs = (.ok (), b') ∧ b'.Willing := by
  induction bs generalizing b with
  | nil => exact ⟨b, by rw [Buffer.write, h.stuck], h⟩
  | cons byte more ih =>
    obtain ⟨b₁, hpush, h₁⟩ := h.push byte
    cases more with
    | nil => exact ⟨b₁, hpush, h₁⟩
    | cons =>
      obtain ⟨b', hwrite, h'⟩ := ih h₁
      exact ⟨b', by rw [write_cons_cons, hpush]; exact hwrite, h'⟩

end Buffer

namespace Output

/-- A write that succeeds adds its bytes behind all others. -/
theorem took_of_write {out out' : Output} {bs : List UInt8} (h : out.write bs = (.ok (), out')) :
    Took bs out out' := by
  cases out with
  | direct s | unflushable s =>
    rcases s.write_cases bs with hw | hw
    · rw [write, hw] at h
      cases h
      exact took_of_sink rfl rfl rfl
    · rw [write, hw] at h
      cases h
  | buffered b =>
    rw [write] at h
    rcases hw : b.write bs with ⟨_ | _, b'⟩
    · rw [hw] at h
      cases h
    · rw [hw] at h
      cases h
      exact Buffer.took_of_write hw

theorem Willing.writeAll {out : Output} (h : out.Willing) (bs : List UInt8) :
    ∃ out', out.write bs = (.ok (), out') ∧ out'.Willing := by
  cases out with
  | direct s =>
    rw [Output.write, Sink.write_of_limit h]
    exact ⟨_, rfl, h⟩
  | buffered b =>
    obtain ⟨b', hw, h'⟩ := Buffer.Willing.write h bs
    rw [Output.write, hw]
    exact ⟨_, rfl, h'⟩
  | unflushable => exact h.elim

end Output

namespace Dump

theorem took_of_writeRows {rows : List String} {out out' : Output}
    (h : writeRows rows out = (.ok (), out')) :
    Output.Took (Text.encode (String.join rows)) out out' := by
  induction rows generalizing out with
  | nil =>
    cases h
    exact Output.took_refl _
  | cons row rest ih =>
    rw [writeRows] at h
    split at h
    · rename_i out₁ hw
      have htext : Text.encode (String.join (row :: rest)) =
          Text.encode row ++ Text.encode (String.join rest) := by
        rw [← Text.encode_append]
        simp
      rw [htext]
      exact (Output.took_of_write hw).trans (ih h)
    · rename_i hfailed
      exact absurd h (hfailed _)

theorem writeRows_of_willing (rows : List String) {out : Output} (h : out.Willing) :
    ∃ out', writeRows rows out = (.ok (), out') := by
  induction rows generalizing out with
  | nil => exact ⟨out, rfl⟩
  | cons row rest ih =>
    obtain ⟨out₁, hw, h₁⟩ := h.writeAll (Text.encode row)
    rw [writeRows, hw]
    exact ih h₁

/-- To write the dump of a snapshot, wherever to, is to write a text.  It ends in success only if all of the
text was taken, and always does so at an output that never fails. -/
def Renders (color : Bool) (s : Snapshot) (text : String) : Prop :=
  ∀ out : Output, ∃ result out', render? color s out = some (result, out') ∧
    (result = .ok () → out'.taken = out.taken ++ Text.encode text) ∧
    (out.Willing → result = .ok ())

/-- **What is written is the text of the dump.** -/
theorem renders_of_text? {color : Bool} {s : Snapshot} {text : String} (h : text? color s = some text) :
    Renders color s text := by
  obtain ⟨rows, hrows, rfl⟩ := Option.map_eq_some_iff.mp h
  intro out
  refine ⟨(writeRows rows out).1, (writeRows rows out).2, by rw [render?, hrows, Option.map_some], ?_, ?_⟩
  · exact fun hok ↦ (took_of_writeRows (Prod.ext hok rfl)).taken
  · intro hwilling
    obtain ⟨out', hwrite⟩ := writeRows_of_willing rows hwilling
    rw [hwrite]

end Dump
end TapeMachine
