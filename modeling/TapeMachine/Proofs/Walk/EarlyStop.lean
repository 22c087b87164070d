import Mathlib.Data.List.ReduceOption
import Mathlib.Data.Seq.Basic
import TapeMachine.Proofs.Tape.Snapshot

/-!
# Walks that stop early

A walk is given its sequences as lists, so nothing in it tells how much of them it needs.  Here the same
two loops run over sequences that come up with a value only when they are asked for one, and that may go
on for ever (`Stream'.Seq`).  One loop asks a single sequence (`Asks`), the other asks sequences in turn
(`AsksInTurn`), and both record the answers: a value each, or `none` from a sequence that has ended.

For every consumer, whatever makes it stop,

* the values that were answered are the ones it was given (`AsksInTurn.each_eq`),
* they are a beginning of the sequences in a row, and all of them if the consumer did not stop
  (`AsksInTurn.exists_rest`),
* no sequence is asked for anything once the consumer has stopped (`AsksInTurn.unstopped`).

A walk over lists is a case of it (`asksInTurn_concat`).  When the consumer is one that stops after `k`
values, the walk comes to an end even where a sequence does not (`StopsAfter.exists_asksInTurn`), with the
first `k` values answered and no further one asked for (`AsksInTurn.answeredUpTo`).

A snapshot of a tape is read by a walk over its three spans.  The last theorem puts the two together.
-/

set_option autoImplicit false
namespace TapeMachine

namespace Walk

variable {α σ : Type} {f : α → σ → ForInStep σ}

/-! ## Asking for values -/

/-- Asks a sequence for one value after the other and hands them to a consumer, until the sequence has
ended or the consumer stops. -/
inductive Asks (f : α → σ → ForInStep σ) :
    Stream'.Seq α → σ → (answers : List (Option α)) → ForInStep σ → Prop
  | ended {s : σ} : Asks f .nil s [none] (.yield s)
  | stopped {a : α} {xs : Stream'.Seq α} {s s' : σ} (h : f a s = .done s') :
      Asks f (.cons a xs) s [some a] (.done s')
  | next {a : α} {xs : Stream'.Seq α} {s s' : σ} {answers : List (Option α)} {r : ForInStep σ}
      (h : f a s = .yield s') (hrest : Asks f xs s' answers r) :
      Asks f (.cons a xs) s (some a :: answers) r

/-- Asks sequences in turn.  A stop within one of them stops the whole walk. -/
inductive AsksInTurn (f : α → σ → ForInStep σ) :
    List (Stream'.Seq α) → σ → (answers : List (Option α)) → ForInStep σ → Prop
  | nil {s : σ} : AsksInTurn f [] s [] (.yield s)
  | stopped {xs : Stream'.Seq α} {xss : List (Stream'.Seq α)} {s s' : σ} {answers : List (Option α)}
      (h : Asks f xs s answers (.done s')) : AsksInTurn f (xs :: xss) s answers (.done s')
  | next {xs : Stream'.Seq α} {xss : List (Stream'.Seq α)} {s s' : σ} {answers more : List (Option α)}
      {r : ForInStep σ} (h : Asks f xs s answers (.yield s')) (hrest : AsksInTurn f xss s' more r) :
      AsksInTurn f (xs :: xss) s (answers ++ more) r

/-- Some sequences as one: each begins where the one before it ends, if it ends. -/
def inRow (xss : List (Stream'.Seq α)) : Stream'.Seq α :=
  xss.foldr .append .nil

/-! ## What a consumer is given -/

theorem each_cons_of_yield {a : α} {s s' : σ} (h : f a s = .yield s') (xs : List α) :
    each f (a :: xs) s = each f xs s' := by
  rw [each, h]

theorem each_append_of_yield {xs : List α} {s s' : σ} (h : each f xs s = .yield s') (ys : List α) :
    each f (xs ++ ys) s = each f ys s' := by
  rw [each_append, h]

section Consumer

variable {s : σ} {answers : List (Option α)} {r : ForInStep σ}

theorem Asks.each_eq {xs : Stream'.Seq α} (h : Asks f xs s answers r) :
    each f answers.reduceOption s = r := by
  induction h with
  | ended => rfl
  | stopped h => rw [List.reduceOption_cons_of_some, List.reduceOption_nil, each, h]
  | next h _ ih => rw [List.reduceOption_cons_of_some, each_cons_of_yield h, ih]

/-- The values that were answered are what the consumer was given. -/
theorem AsksInTurn.each_eq {xss : List (Stream'.Seq α)} (h : AsksInTurn f xss s answers r) :
    each f answers.reduceOption s = r := by
  induction h with
  | nil => rfl
  | stopped h => exact h.each_eq
  | next h _ ih => rw [List.reduceOption_append, each_append_of_yield h.each_eq, ih]

theorem Asks.exists_rest {xs : Stream'.Seq α} (h : Asks f xs s answers r) :
    ∃ rest, xs = .append (.ofList answers.reduceOption) rest ∧ ∀ s', r = .yield s' → rest = .nil := by
  induction h with
  | ended => exact ⟨.nil, (Stream'.Seq.append_nil _).symm, fun _ _ ↦ rfl⟩
  | @stopped a xs _ _ _ =>
    refine ⟨xs, ?_, nofun⟩
    rw [List.reduceOption_cons_of_some, Stream'.Seq.ofList_cons, Stream'.Seq.cons_append,
      List.reduceOption_nil, Stream'.Seq.ofList_nil, Stream'.Seq.nil_append]
  | next _ _ ih =>
    obtain ⟨rest, rfl, hrest⟩ := ih
    refine ⟨rest, ?_, hrest⟩
    rw [List.reduceOption_cons_of_some, Stream'.Seq.ofList_cons, Stream'.Seq.cons_append]

/-- The values that were answered are a beginning of the sequences, and all of them unless the consumer
stopped. -/
theorem AsksInTurn.exists_rest {xss : List (Stream'.Seq α)} (h : AsksInTurn f xss s answers r) :
    ∃ rest, inRow xss = .append (.ofList answers.reduceOption) rest ∧
      ∀ s', r = .yield s' → rest = .nil := by
  induction h with
  | nil => exact ⟨.nil, (Stream'.Seq.append_nil _).symm, fun _ _ ↦ rfl⟩
  | @stopped xs xss _ _ _ h =>
    obtain ⟨rest, hxs, -⟩ := h.exists_rest
    refine ⟨.append rest (inRow xss), ?_, nofun⟩
    rw [← Stream'.Seq.append_assoc, ← hxs]
    rfl
  | @next xs xss _ _ _ _ _ h _ ih =>
    obtain ⟨rest, hxs, hnil⟩ := h.exists_rest
    obtain ⟨rest', hxss, hrest'⟩ := ih
    refine ⟨rest', ?_, hrest'⟩
    -- The consumer did not stop within this sequence, so it was given all of it.
    rw [hnil _ rfl, Stream'.Seq.append_nil] at hxs
    rw [List.reduceOption_append, Stream'.Seq.ofList_append, Stream'.Seq.append_assoc, ← hxs, ← hxss]
    rfl

theorem Asks.unstopped {xs : Stream'.Seq α} (h : Asks f xs s answers r) {i : Nat}
    (hi : i < answers.length) : ∃ s', each f (answers.take i).reduceOption s = .yield s' := by
  induction h generalizing i with
  | @ended s | @stopped _ _ s =>
    rw [List.length_singleton] at hi
    exact ⟨s, by rw [Nat.lt_one_iff.mp hi]; rfl⟩
  | @next _ _ s _ _ _ h _ ih =>
    cases i with
    | zero => exact ⟨s, rfl⟩
    | succ i =>
      rw [List.take_succ_cons, List.reduceOption_cons_of_some, each_cons_of_yield h]
      exact ih (Nat.lt_of_succ_lt_succ hi)

/-- Whenever a sequence is asked, the consumer has stopped at none of the values before. -/
theorem AsksInTurn.unstopped {xss : List (Stream'.Seq α)} (h : AsksInTurn f xss s answers r) {i : Nat}
    (hi : i < answers.length) : ∃ s', each f (answers.take i).reduceOption s = .yield s' := by
  induction h generalizing i with
  | nil => exact absurd hi (Nat.not_lt_zero _)
  | stopped h => exact h.unstopped hi
  | @next _ _ _ _ answers _ _ h _ ih =>
    rw [List.take_append]
    rcases Nat.lt_or_ge i answers.length with hlt | hge
    · rw [Nat.sub_eq_zero_of_le hlt.le, List.take_zero, List.append_nil]
      exact h.unstopped hlt
    · rw [List.take_of_length_le hge, List.reduceOption_append, each_append_of_yield h.each_eq]
      exact ih (by rw [List.length_append] at hi; omega)

end Consumer

/-! ## Lists as sequences -/

theorem asks_each (f : α → σ → ForInStep σ) (xs : List α) (s : σ) :
    ∃ answers, Asks f (.ofList xs) s answers (each f xs s) := by
  induction xs generalizing s with
  | nil =>
    rw [Stream'.Seq.ofList_nil]
    exact ⟨_, .ended⟩
  | cons a xs ih =>
    rw [Stream'.Seq.ofList_cons, each]
    cases h : f a s with
    | done s' => exact ⟨_, .stopped h⟩
    | yield s' =>
      obtain ⟨answers, hrest⟩ := ih s'
      exact ⟨_, .next h hrest⟩

/-- A walk over lists asks them in turn. -/
theorem asksInTurn_concat (f : α → σ → ForInStep σ) (xss : List (List α)) (s : σ) :
    ∃ answers, AsksInTurn f (xss.map .ofList) s answers (concat f xss s) := by
  induction xss generalizing s with
  | nil => exact ⟨_, .nil⟩
  | cons xs xss ih =>
    obtain ⟨answers, h⟩ := asks_each f xs s
    rw [List.map_cons, concat]
    cases hr : each f xs s with
    | done s' => exact ⟨_, .stopped (hr ▸ h)⟩
    | yield s' =>
      obtain ⟨more, hrest⟩ := ih s'
      exact ⟨_, .next (hr ▸ h) hrest⟩

theorem inRow_map_ofList (xss : List (List α)) :
    inRow (xss.map Stream'.Seq.ofList) = .ofList xss.flatten := by
  induction xss with
  | nil => exact Stream'.Seq.ofList_nil.symm
  | cons xs xss ih =>
    rw [List.flatten_cons, Stream'.Seq.ofList_append, ← ih]
    rfl

theorem take_ofList (xs : List α) (k : Nat) : (Stream'.Seq.ofList xs).take k = xs.take k := by
  induction xs generalizing k with
  | nil => rw [Stream'.Seq.ofList_nil, Stream'.Seq.take_nil, List.take_nil]
  | cons a xs ih =>
    cases k with
    | zero => rfl
    | succ k => rw [Stream'.Seq.ofList_cons, Stream'.Seq.take_succ_cons, List.take_succ_cons, ih]

theorem take_ofList_append (xs : List α) (rest : Stream'.Seq α) :
    (Stream'.Seq.append (.ofList xs) rest).take xs.length = xs := by
  induction xs with
  | nil => rfl
  | cons a xs ih =>
    rw [Stream'.Seq.ofList_cons, Stream'.Seq.cons_append, List.length_cons, Stream'.Seq.take_succ_cons, ih]

/-! ## Consumers that stop after some values -/

/-- From a state on, a consumer stops at the `k`-th value that it is given, and not before. -/
def StopsAfter (k : Nat) (f : α → σ → ForInStep σ) (s : σ) : Prop :=
  ∀ xs, (∃ s', each f xs s = .yield s') ↔ xs.length < k

theorem StopsAfter.pos {k : Nat} {s : σ} (hf : StopsAfter k f s) : 0 < k :=
  (hf []).mp ⟨s, rfl⟩

/-- What a consumer was given counts towards its stop. -/
theorem StopsAfter.after {k : Nat} {s s' : σ} (hf : StopsAfter k f s) {xs : List α}
    (h : each f xs s = .yield s') : StopsAfter (k - xs.length) f s' := by
  intro ys
  rw [← each_append_of_yield h, hf, List.length_append]
  omega

theorem StopsAfter.exists_asks {k : Nat} {s : σ} (hf : StopsAfter k f s) (xs : Stream'.Seq α) :
    ∃ answers r, Asks f xs s answers r := by
  induction k generalizing s xs with
  | zero => exact absurd hf.pos (Nat.lt_irrefl 0)
  | succ k ih =>
    cases xs using Stream'.Seq.recOn with
    | nil => exact ⟨_, _, .ended⟩
    | cons a xs =>
      cases h : f a s with
      | done s' => exact ⟨_, _, .stopped h⟩
      | yield s' =>
        have hfirst : each f [a] s = .yield s' := each_cons_of_yield h []
        obtain ⟨answers, r, hrest⟩ := ih (hf.after hfirst) xs
        exact ⟨_, _, .next h hrest⟩

/-- A consumer that stops after some values brings the walk to an end. -/
theorem StopsAfter.exists_asksInTurn {k : Nat} {s : σ} (hf : StopsAfter k f s)
    (xss : List (Stream'.Seq α)) : ∃ answers r, AsksInTurn f xss s answers r := by
  induction xss generalizing k s with
  | nil => exact ⟨_, _, .nil⟩
  | cons xs xss ih =>
    obtain ⟨answers, r, h⟩ := hf.exists_asks xs
    cases r with
    | done s' => exact ⟨_, _, .stopped h⟩
    | yield s' =>
      obtain ⟨more, r, hrest⟩ := ih (hf.after h.each_eq)
      exact ⟨_, _, .next h hrest⟩

theorem length_values_le {k : Nat} {answers : List (Option α)}
    (hasked : ∀ i < answers.length, (answers.take i).reduceOption.length < k) :
    answers.reduceOption.length ≤ k := by
  rcases List.eq_nil_or_concat' answers with rfl | ⟨before, last, rfl⟩
  · exact Nat.zero_le k
  · -- The last answer was asked for with fewer than `k` values, and has brought one at most.
    have hbefore := hasked before.length (by simp)
    rw [List.take_left] at hbefore
    have hlast := List.reduceOption_length_le [last]
    rw [List.reduceOption_append, List.length_append]
    exact Nat.le_trans (Nat.add_le_add_left hlast _) hbefore

/-- Answers that bring the first `k` values of a sequence, and no value is asked for beyond them. -/
structure AnsweredUpTo (k : Nat) (xs : Stream'.Seq α) (answers : List (Option α)) : Prop where
  /-- The values that were answered. -/
  values_eq : answers.reduceOption = xs.take k
  /-- There were fewer than `k` values whenever one more was asked for. -/
  asked : ∀ i < answers.length, (answers.take i).reduceOption.length < k

theorem AsksInTurn.answeredUpTo {k : Nat} {s : σ} (hf : StopsAfter k f s) {xss : List (Stream'.Seq α)}
    {answers : List (Option α)} {r : ForInStep σ} (h : AsksInTurn f xss s answers r) :
    AnsweredUpTo k (inRow xss) answers := by
  have hasked : ∀ i < answers.length, (answers.take i).reduceOption.length < k :=
    fun i hi ↦ (hf _).mp (h.unstopped hi)
  refine ⟨?_, hasked⟩
  obtain ⟨rest, hrow, hrest⟩ := h.exists_rest
  cases r with
  | yield s' =>
    have hlt : answers.reduceOption.length < k := (hf _).mp ⟨s', h.each_eq⟩
    rw [hrow, hrest s' rfl, Stream'.Seq.append_nil, take_ofList, List.take_of_length_le hlt.le]
  | done s' =>
    have hge : ¬answers.reduceOption.length < k := by
      intro hlt
      obtain ⟨s'', hs''⟩ := (hf _).mpr hlt
      exact nomatch h.each_eq.symm.trans hs''
    have hlength : answers.reduceOption.length = k :=
      Nat.le_antisymm (length_values_le hasked) (Nat.le_of_not_lt hge)
    rw [hrow, ← hlength, take_ofList_append]

/-- A walk over lists gives its consumer the first `k` values. -/
theorem StopsAfter.concat_eq {k : Nat} {s : σ} (hf : StopsAfter k f s) (xss : List (List α)) :
    concat f xss s = each f (xss.flatten.take k) s := by
  obtain ⟨answers, h⟩ := asksInTurn_concat f xss s
  rw [← take_ofList, ← inRow_map_ofList, ← (h.answeredUpTo hf).values_eq, h.each_eq]

/-! ## Keeping the first values -/

/-- What a consumer has seen that kept every value it was given. -/
def Seen.ofList (xs : List α) : Seen α :=
  ⟨xs.toArray, xs.length⟩

theorem keep_ofList (k : Nat) (a : α) (xs : List α) :
    keep (some k) a (Seen.ofList xs) =
      if k = xs.length + 1 then .done (Seen.ofList (xs ++ [a])) else .yield (Seen.ofList (xs ++ [a])) := by
  simp [keep, Seen.ofList]

/-- Values are kept up to the `k`-th, which is where the consumer stops. -/
theorem each_keep {k : Nat} (xs ys : List α) (h : xs.length < k) :
    each (keep (some k)) ys (Seen.ofList xs) =
      if (xs ++ ys).length < k then .yield (Seen.ofList (xs ++ ys))
      else .done (Seen.ofList ((xs ++ ys).take k)) := by
  induction ys generalizing xs with
  | nil => rw [List.append_nil, if_pos h, each]
  | cons y ys ih =>
    rw [List.append_cons]
    by_cases hk : k = xs.length + 1
    · have hlength : (xs ++ [y]).length = k := by rw [hk, List.length_append, List.length_singleton]
      rw [each, keep_ofList, if_pos hk, List.take_left' hlength,
        if_neg (by rw [List.length_append, hlength]; omega)]
    · rw [each_cons_of_yield ((keep_ofList k y xs).trans (if_neg hk))]
      exact ih (xs ++ [y]) (by rw [List.length_append, List.length_singleton]; omega)

theorem each_keep_empty {k : Nat} (hk : 0 < k) (xs : List α) :
    each (keep (some k)) xs {} =
      if xs.length < k then .yield (Seen.ofList xs) else .done (Seen.ofList (xs.take k)) :=
  each_keep [] xs hk

theorem stopsAfter_keep {k : Nat} (hk : 0 < k) : StopsAfter k (keep (some k)) ({} : Seen α) := by
  intro xs
  rw [each_keep_empty hk]
  split_ifs with h
  · exact iff_of_true ⟨_, rfl⟩ h
  · exact iff_of_false nofun h

theorem firstOf_some (k : Nat) (xss : List (List α)) :
    firstOf (some k) xss = Seen.ofList (xss.flatten.take k) := by
  rcases Nat.eq_zero_or_pos k with rfl | hk
  · rfl
  · rw [firstOf, if_neg (by simpa using hk.ne'), concat_eq_each, each_keep_empty hk]
    split_ifs with h
    · rw [List.take_of_length_le h.le]
      rfl
    · rfl

end Walk

/-! ## Reading a snapshot -/

theorem Snapshot.firstCells?_eq (snap : Snapshot) (k : Nat) :
    snap.firstCells? k = snap.cells?.map (List.take k) := by
  rw [firstCells?, cells?, Option.map_map]
  refine congrArg (snap.spans?.map ·) (funext fun spans ↦ ?_)
  rw [Function.comp_apply, Walk.firstOf_some, Walk.firstOf_none]
  rfl

namespace Tape

theorem cells_eq_ofFn (t : Tape) :
    t.cells = List.ofFn fun i : Fin t.size ↦ ⟨(i : Nat), t.region (i : Nat), t.bytes[i]⟩ := by
  refine List.ext_getElem (by simp) fun i hi _ ↦ ?_
  rw [length_cells] at hi
  simp [cells, cellAt, hi]

/-- **A snapshot is read in the order of the tape, and a walk stops where its consumer stops.**  Read to
the end, a snapshot has each cell of the tape once, with the region that the tape gives to its index; read
up to some cell, it has the cells up to there.

The same holds of every walk.  A consumer that stops after `k` values (so `k` is at least one) is given the
first `k` values of the sequences in a row, or all of them if there are fewer, and no sequence is asked for
more than that.  The walk gets there whether the sequences end or not. -/
theorem read_in_order (t : Tape) (a : Tape.Address) {α σ : Type} (xss : List (List α))
    (seqs : List (Stream'.Seq α)) {k : Nat} {f : α → σ → ForInStep σ} {s : σ}
    (hf : Walk.StopsAfter k f s) :
    let cells : List Cell := List.ofFn fun i : Fin t.size ↦
      ⟨(i : Nat), t.region (i : Nat), t.bytes[i]⟩
    (t.snapshot a).cells? = some cells ∧
    (t.snapshot a).firstCells? k = some (cells.take k) ∧
    Walk.firstOf (some k) xss = .ofList (xss.flatten.take k) ∧
    Walk.concat f xss s = Walk.each f (xss.flatten.take k) s ∧
    (∃ answers, Walk.AsksInTurn f (xss.map .ofList) s answers (Walk.concat f xss s)) ∧
    (∃ answers r, Walk.AsksInTurn f seqs s answers r) ∧
    ∀ answers r, Walk.AsksInTurn f seqs s answers r →
      r = Walk.each f ((Walk.inRow seqs).take k) s ∧
      Walk.AnsweredUpTo k (Walk.inRow seqs) answers := by
  intro cells
  have hcells : (t.snapshot a).cells? = some cells := by rw [t.cells?_snapshot a, cells_eq_ofFn]
  refine ⟨hcells, ?_, Walk.firstOf_some k xss, hf.concat_eq xss, Walk.asksInTurn_concat f xss s,
    hf.exists_asksInTurn seqs, ?_⟩
  · rw [Snapshot.firstCells?_eq, hcells, Option.map_some]
  · intro answers r h
    have hanswered := h.answeredUpTo hf
    exact ⟨by rw [← hanswered.values_eq, h.each_eq], hanswered⟩

/-- There is no program on this tape, and the last sequence never ends. -/
theorem read_in_order_endless :
    let t := ((Tape.ofProgram [] 3).setStorage 9).setCell ⟨1⟩ 7
    let seqs : List (Stream'.Seq Nat) := [.nil, .ofList [5], .nats]
    Walk.StopsAfter 3 (Walk.keep (some 3)) ({} : Walk.Seen Nat) ∧
    (t.snapshot ⟨1⟩).firstCells? 3 = some [⟨0, .storage, 9⟩, ⟨1, .data, 0⟩, ⟨2, .data, 7⟩] ∧
    ∃ answers, answers.reduceOption = [5, 0, 1] ∧
      Walk.AsksInTurn (Walk.keep (some 3)) seqs {} answers (.done (.ofList [5, 0, 1])) := by
  intro t seqs
  have hkeep : Walk.StopsAfter 3 (Walk.keep (some 3)) ({} : Walk.Seen Nat) :=
    Walk.stopsAfter_keep (by decide)
  obtain ⟨-, hfirst, -, -, -, ⟨answers, r, h⟩, hall⟩ := t.read_in_order ⟨1⟩ [] seqs hkeep
  obtain ⟨rfl, hanswered⟩ := hall answers r h
  exact ⟨hkeep, hfirst, answers, hanswered.values_eq, h⟩

end Tape
end TapeMachine
