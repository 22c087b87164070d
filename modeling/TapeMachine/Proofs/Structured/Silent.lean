import TapeMachine.Proofs.Machine.TickLimit
import TapeMachine.Proofs.Structured.Simulation

/-!
# Silent programs

A program that is balanced and does not speak to the channel has nothing that could fail.  It may run forever,
and a tick limit may cut it off, but other than that a run of it comes to its end (`returns_silent`).

A balanced program is the text of a tree (`Balanced.exists_flatten_eq`), and an evaluation of a silent tree is
not stopped (`Tree.Eval.silent`).  So a machine without a limit can only come to its end.  A limit adds one
way to end, which is the limit itself (`Returns.cases_limitedTo`).
-/

set_option autoImplicit false
namespace TapeMachine

open Operator (loopByte againByte)

/-- A program that does not speak to the channel. -/
def IsSilent (w : List UInt8) : Prop :=
  ∀ b ∈ w, b ≠ 0x2e ∧ b ≠ 0x2c

/-- A balanced program is the text of a tree. -/
theorem Balanced.exists_flatten_eq {w : List UInt8} (h : Balanced loopByte againByte w) :
    ∃ t : Tree, t.flatten = w := by
  induction h with
  | nil => exact ⟨.nil, rfl⟩
  | @cons b w hloop hagain _ ih =>
    obtain ⟨t, rfl⟩ := ih
    exact ⟨.byte b ⟨hloop, hagain⟩ t, rfl⟩
  | nest _ _ ihu ihw =>
    obtain ⟨body, rfl⟩ := ihu
    obtain ⟨rest, rfl⟩ := ihw
    exact ⟨.loop body rest, rfl⟩

variable {σ : Type} [Channel σ]

/-! ## Evaluation -/

theorem Memory.exists_obey_eq_done {b : UInt8} (hb : b ≠ 0x2e ∧ b ≠ 0x2c) (mem : Memory) (c : σ) :
    ∃ mem', mem.obey b c = .done mem' c := by
  unfold obey
  split
  · exact ⟨_, rfl⟩
  · exact ⟨_, rfl⟩
  · exact ⟨_, rfl⟩
  · exact ⟨_, rfl⟩
  · exact absurd rfl hb.1
  · exact absurd rfl hb.2
  · exact ⟨_, rfl⟩

/-- **An evaluation of a silent tree is not stopped**, and does nothing to the channel. -/
theorem Tree.Eval.silent {t : Tree} {mem : Memory} {c : σ} {r : Result σ} (h : t.Eval mem c r)
    (ht : IsSilent t.flatten) : ∃ mem', r = .done mem' c := by
  induction h with
  | @nil mem c => exact ⟨mem, rfl⟩
  | @byte b _ rest mem mem₁ c c₁ r hb _ ih =>
    obtain ⟨hsilent, hrest⟩ := List.forall_mem_cons.mp ht
    obtain ⟨mem', hobey⟩ := mem.exists_obey_eq_done hsilent c
    cases hobey.symm.trans hb
    exact ih hrest
  | @byteFailed b _ rest mem mem₁ c c₁ e hb =>
    obtain ⟨mem', hobey⟩ := mem.exists_obey_eq_done (ht b List.mem_cons_self) c
    cases hobey.symm.trans hb
  | loopDone _ _ ih =>
    exact ih fun b hb ↦ ht b (by simp [flatten, hb])
  | @loopAgain body rest mem mem₁ c c₁ r _ _ _ ihbody ihagain =>
    obtain ⟨mem', hr⟩ := ihbody fun b hb ↦ ht b (by simp [flatten, hb])
    cases hr
    exact ihagain ht
  | @loopFailed body rest mem mem₁ c c₁ e _ _ ih =>
    obtain ⟨mem', hr⟩ := ih fun b hb ↦ ht b (by simp [flatten, hb])
    cases hr

/-! ## Runs -/

namespace Machine

/-- **A run under a limit ends as it does without one, or by the limit.** -/
theorem Returns.cases_limitedTo {m m' : Machine} {c c' : σ} {o : Outcome Unit} {limit : Nat}
    (h : (m.limitedTo limit).Returns c m' c' o) (hfresh : m.ticks = 0) (hopen : m.options.tickLimit ≤ 0)
    (hpos : 0 < limit) : o = .error Condition.tickLimit ∨ ∃ m₁, m.Returns c m₁ c' o := by
  rcases runs_or_ends limit m c with ⟨m₁, c₁, hruns, hr⟩ | ⟨k, m₁, c₁, o₁, hends, hk, hlast⟩
  · have hcut := hruns.ends_limitedTo hr hopen hpos (by omega)
    obtain ⟨-, -, rfl⟩ := h.unique hcut.returns
    exact Or.inl rfl
  · have hsame : Ends k (m.limitedTo limit) c (m₁.limitedTo limit) c₁ o₁ :=
      hends.limitedTo hopen (by omega) fun heq ↦ hlast (by omega)
    obtain ⟨-, rfl, rfl⟩ := h.unique hsame.returns
    exact Or.inr ⟨m₁, hends.returns⟩

/-- Without a limit, a run of a silent program can only come to its end. -/
theorem Returns.eq_ok_of_silent {m m' : Machine} {c c' : σ} {o : Outcome Unit} {t : Tree} {mem : Memory}
    (h : m.Returns c m' c' o) (hs : m.Sound) (hm : Enters m.plain [] [] mem t)
    (ht : IsSilent t.flatten) : o = .ok () := by
  rcases eval_of_returns hs hm h with ⟨mem', ho, -⟩ | ⟨mem', ip, op, e, -, -, -, heval⟩
  · exact ho
  · obtain ⟨mem'', hr⟩ := heval.silent ht
    cases hr

/-- **A run of a balanced and silent program comes to its end, unless a tick limit cuts it off.**  This is so
with or without a jump table, on data cells of any number, and on all channels.  In particular no bracket
lacks its partner.

The length of the tape is taken to be a word. -/
theorem returns_silent {w : List UInt8} (hw : Balanced loopByte againByte w) (hsilent : IsSilent w)
    {dataLength : Int} (hd : 1 ≤ dataLength) (hsize : IsWord (1 + w.length + dataLength))
    (precompute : Bool) (tickLimit : Int) {m' : Machine} {c c' : σ} {o : Outcome Unit}
    (h : (fresh w dataLength ⟨0, precompute, tickLimit⟩).Returns c m' c' o) :
    o = .ok () ∨ o = .error Condition.tickLimit := by
  obtain ⟨t, rfl⟩ := hw.exists_flatten_eq
  rcases Int.lt_or_le 0 tickLimit with hpos | hopen
  · obtain ⟨limit, rfl⟩ := Int.eq_ofNat_of_zero_le (Int.le_of_lt hpos)
    have hs := sound_fresh t.flatten hd hsize ⟨0, precompute, 0⟩
    have hm := enters_fresh t hd hsize ⟨0, precompute, 0⟩ rfl (Int.le_refl 0)
    have hlimited : ((fresh t.flatten dataLength ⟨0, precompute, 0⟩).limitedTo limit).Returns c m' c' o := h
    rcases hlimited.cases_limitedTo rfl (Int.le_refl 0) (by omega) with ho | ⟨m₁, hret⟩
    · exact Or.inr ho
    · exact Or.inl (hret.eq_ok_of_silent hs hm hsilent)
  · have hs := sound_fresh t.flatten hd hsize ⟨0, precompute, tickLimit⟩
    have hm := enters_fresh t hd hsize ⟨0, precompute, tickLimit⟩ rfl hopen
    exact Or.inl (h.eq_ok_of_silent hs hm hsilent)

end Machine
end TapeMachine
