import TapeMachine.Proofs.Script.Generator

/-!
# Generators are read back from their tokens

A generator is written down as tokens in the way one would expect, with a sum always in brackets.  Those
tokens are read as the generator, and those of a whole script as the statement that binds `program`
(`Generated.parse?_tokens`).

The readers descend one level at a time, and each of them may go on after it has read what it was looking for.
So what is shown of an expression says what may follow it (`Ends`), and holds for every depth that is enough:
eight for every token is.
-/

set_option autoImplicit false
namespace TapeMachine.Script

open Grammar

/-! ## Tokens -/

/-- A count as it is written: a sign before the digits. -/
def countTokens (n : Int) : List Token :=
  if n < 0 then [.symbol "-", .int n.natAbs] else [.int n.natAbs]

def Generator.tokens : Generator → List Token
  | run f n _ => .name f.name :: .symbol "(" :: (countTokens n ++ [.symbol ")"])
  | loop body => .name loopName :: .symbol "(" :: (body.tokens ++ [.symbol ")"])
  | concat l r => .symbol "(" :: (l.tokens ++ .symbol "+" :: (r.tokens ++ [.symbol ")"]))

/-- The tokens of an item of a list, with the comma behind it. -/
def Generator.itemTokens (g : Generator) : List Token :=
  g.tokens ++ [.symbol ","]

def Generated.exprTokens : Generated → List Token
  | one g => g.tokens
  | several gs => .symbol "[" :: (gs.flatMap Generator.itemTokens ++ [.symbol "]"])

/-- The tokens of a script that binds `program`. -/
def Generated.tokens (p : Generated) : List Token :=
  .name "program" :: .symbol "=" :: (p.exprTokens ++ [.newline])

/-! ## What stands around an expression -/

/-- How an expression begins. -/
inductive Starts : List Token → Prop
  | int (k : Nat) (ts : List Token) : Starts (.int k :: ts)
  | sign (ts : List Token) : Starts (.symbol "-" :: ts)
  | call (s : String) (ts : List Token) : Starts (.name s :: .symbol "(" :: ts)
  | bracket (ts : List Token) : Starts (.symbol "(" :: ts)
  | list (ts : List Token) : Starts (.symbol "[" :: ts)

namespace Starts

variable {ts : List Token}

theorem append (h : Starts ts) (rest : List Token) : Starts (ts ++ rest) := by
  cases h with
  | int k ts => exact .int k _
  | sign ts => exact .sign _
  | call f ts => exact .call f _
  | bracket ts => exact .bracket _
  | list ts => exact .list _

theorem binary? (h : Starts ts) (n level : Nat) : Grammar.binary? (n + 1) level ts =
    (suffixed? n ts).bind fun r ↦ operators? n level false r.1 r.2 := by
  cases h <;> rfl

/-- An argument. -/
theorem arguments? (h : Starts ts) (n : Nat) : Grammar.arguments? (n + 1) {} ts =
    (test? n ts).bind fun r ↦ moreArguments? n { positional := [r.1] } r.2 := by
  cases h <;> rfl

/-- The inside of brackets. -/
theorem primary? (h : Starts ts) (n : Nat) {e : Expr String} {rest : List Token}
    (htest : test? n ts = some (e, .symbol ")" :: rest)) :
    Grammar.primary? (n + 1) (.symbol "(" :: ts) = some (e, rest) := by
  cases h
  all_goals
    change (test? n _ >>= _) = _
    rw [htest]
    rfl

/-- The inside of a list. -/
theorem primary?_list (h : Starts ts) (n : Nat) {e : Expr String} {rest : List Token}
    (htest : test? n ts = some (e, .symbol "," :: rest)) :
    Grammar.primary? (n + 1) (.symbol "[" :: ts) =
      (Grammar.items? n "]" [e] rest).bind fun r ↦ some (.list r.1, r.2) := by
  cases h
  all_goals
    change (test? n _ >>= _) = _
    rw [htest]
    rfl

/-- An item of a list, with the comma behind it. -/
theorem items? (h : Starts ts) (n : Nat) (before : List (Expr String)) {e : Expr String} {rest : List Token}
    (htest : test? n ts = some (e, .symbol "," :: rest)) :
    Grammar.items? (n + 1) "]" before ts = Grammar.items? n "]" (e :: before) rest := by
  have hopen : closes "]" ts = false := by
    cases h <;> rfl
  rw [Grammar.items?, hopen, htest]
  rfl

end Starts

/-- What follows is no suffix. -/
def NoSuffix (rest : List Token) : Prop :=
  ∀ n e, suffixes? (n + 1) e rest = some (e, rest)

/-- What follows is no part of the expression. -/
structure Ends (rest : List Token) : Prop where
  noSuffix : NoSuffix rest
  operator : operator? rest = none
  choice : ∀ ts, rest ≠ .keyword "if" :: ts

theorem ends_bracket (ts : List Token) : Ends (.symbol ")" :: ts) :=
  ⟨fun _ _ ↦ rfl, rfl, nofun⟩

theorem ends_comma (ts : List Token) : Ends (.symbol "," :: ts) :=
  ⟨fun _ _ ↦ rfl, rfl, nofun⟩

theorem ends_newline (ts : List Token) : Ends (.newline :: ts) :=
  ⟨fun _ _ ↦ rfl, rfl, nofun⟩

/-- What begins with a sign or a bracket is all that there is, unless there is a suffix. -/
theorem NoSuffix.suffixed? {rest : List Token} (h : NoSuffix rest) {n : Nat} {s : String} {ts : List Token}
    {e : Expr String} (hprimary : primary? (n + 1) (.symbol s :: ts) = some (e, rest)) :
    Grammar.suffixed? (n + 2) (.symbol s :: ts) = some (e, rest) := by
  change (primary? (n + 1) _ >>= fun r ↦ suffixes? (n + 1) r.1 r.2) = _
  rw [hprimary]
  exact h n e

/-- An expression is all that there is, unless it is a condition. -/
theorem Ends.test? {rest : List Token} (h : Ends rest) {n : Nat} {ts : List Token} {e : Expr String}
    (hbinary : binary? n 0 ts = some (e, rest)) : Grammar.test? (n + 1) ts = some (e, rest) := by
  rw [Grammar.test?, hbinary, Option.bind_eq_bind, Option.bind_some]
  dsimp only
  split
  · exact absurd rfl (h.choice _)
  · rfl

/-! ## Terms -/

/-- Some tokens are read as an expression without operators outside of brackets. -/
structure IsTerm (ts : List Token) (e : Expr String) : Prop where
  starts : Starts ts
  suffixed? : ∀ {n : Nat} {rest : List Token}, 8 * ts.length ≤ n → NoSuffix rest →
    suffixed? n (ts ++ rest) = some (e, rest)

namespace IsTerm

variable {ts : List Token} {e : Expr String}

theorem binary? (h : IsTerm ts e) {rest : List Token} (hends : Ends rest) {n : Nat}
    (hn : 8 * ts.length + 2 ≤ n) (level : Nat) : Grammar.binary? n level (ts ++ rest) = some (e, rest) := by
  obtain ⟨k, rfl⟩ : ∃ k, n = k + 2 := ⟨n - 2, by omega⟩
  rw [(h.starts.append rest).binary?, h.suffixed? (by omega) hends.noSuffix, Option.bind_some,
    operators?, hends.operator]

theorem test? (h : IsTerm ts e) {rest : List Token} (hends : Ends rest) {n : Nat}
    (hn : 8 * ts.length + 3 ≤ n) : Grammar.test? n (ts ++ rest) = some (e, rest) := by
  obtain ⟨k, rfl⟩ : ∃ k, n = k + 1 := ⟨n - 1, by omega⟩
  exact hends.test? (h.binary? hends (by omega) 0)

theorem count (n : Int) : IsTerm (countTokens n) (countExpr n) := by
  unfold countTokens countExpr
  split
  · refine ⟨.sign _, fun {m rest} hm hrest ↦ ?_⟩
    obtain ⟨k, rfl⟩ : ∃ k, m = k + 5 := ⟨m - 5, by simp at hm; omega⟩
    have hdigits : Grammar.suffixed? (k + 3) (.int n.natAbs :: rest) = some (.int n.natAbs, rest) :=
      hrest _ _
    refine hrest.suffixed? ?_
    change (Grammar.suffixed? (k + 3) (.int n.natAbs :: rest) >>= _) = _
    rw [hdigits]
    rfl
  · refine ⟨.int _ _, fun {m rest} hm hrest ↦ ?_⟩
    obtain ⟨k, rfl⟩ : ∃ k, m = k + 2 := ⟨m - 2, by simp at hm; omega⟩
    exact hrest _ _

theorem call (h : IsTerm ts e) (f : String) :
    IsTerm (.name f :: .symbol "(" :: (ts ++ [.symbol ")"])) (.call (.name f) [e] []) := by
  refine ⟨.call f _, fun {m rest} hm hrest ↦ ?_⟩
  obtain ⟨k, rfl⟩ : ∃ k, m = k + 4 := ⟨m - 4, by simp at hm; omega⟩
  have htest := h.test? (ends_bracket rest) (show 8 * ts.length + 3 ≤ k + 1 by simp at hm; omega)
  have hargs : arguments? (k + 2) {} (ts ++ .symbol ")" :: rest) = some ({ positional := [e] }, rest) := by
    rw [(h.starts.append _).arguments?, htest]
    rfl
  have hcall : Grammar.suffixed? (k + 4) (.name f :: .symbol "(" :: (ts ++ .symbol ")" :: rest)) =
      (arguments? (k + 2) {} (ts ++ .symbol ")" :: rest)).bind fun r ↦
        (r.1.call? (.name f)).bind fun e ↦ suffixes? (k + 2) e r.2 := rfl
  rw [List.cons_append, List.cons_append, List.append_assoc, List.singleton_append, hcall, hargs]
  exact hrest _ _

/-- A sum in brackets. -/
theorem sum {ls rs : List Token} {l r : Expr String} (hl : IsTerm ls l) (hr : IsTerm rs r) :
    IsTerm (.symbol "(" :: (ls ++ .symbol "+" :: (rs ++ [.symbol ")"]))) (.binary .add l r) := by
  refine ⟨.bracket _, fun {m rest} hm hrest ↦ ?_⟩
  simp only [List.length_cons, List.length_append, List.length_nil] at hm
  obtain ⟨k, rfl⟩ : ∃ k, m = k + 6 := ⟨m - 6, by omega⟩
  have hleft : Grammar.suffixed? (k + 2) (ls ++ .symbol "+" :: (rs ++ .symbol ")" :: rest)) =
      some (l, .symbol "+" :: (rs ++ .symbol ")" :: rest)) := hl.suffixed? (by omega) fun _ _ ↦ rfl
  have hright : Grammar.binary? (k + 1) 9 (rs ++ .symbol ")" :: rest) = some (r, .symbol ")" :: rest) :=
    hr.binary? (ends_bracket rest) (by omega) 9
  have hsum : operators? (k + 2) 0 false l (.symbol "+" :: (rs ++ .symbol ")" :: rest)) =
      (Grammar.binary? (k + 1) 9 (rs ++ .symbol ")" :: rest)).bind fun s ↦
        operators? (k + 1) 0 false (.binary .add l s.1) s.2 := rfl
  have hstarts := hl.starts.append (.symbol "+" :: (rs ++ .symbol ")" :: rest))
  have hbinary : Grammar.binary? (k + 3) 0 (ls ++ .symbol "+" :: (rs ++ .symbol ")" :: rest)) =
      some (.binary .add l r, .symbol ")" :: rest) := by
    rw [hstarts.binary?, hleft, Option.bind_some, hsum, hright]
    rfl
  simp only [List.cons_append, List.append_assoc, List.nil_append]
  exact hrest.suffixed? (hstarts.primary? (k + 4) ((ends_bracket rest).test? hbinary))

end IsTerm

/-- **The tokens of a generator are read as the generator.** -/
theorem Generator.isTerm_tokens (g : Generator) : IsTerm g.tokens g.written := by
  induction g with
  | run f n hn => exact (IsTerm.count n).call f.name
  | loop body ih => exact ih.call loopName
  | concat l r ihl ihr => exact ihl.sum ihr

/-! ## Lists -/

/-- An item is read up to its comma. -/
theorem Generator.test?_itemTokens (g : Generator) (rest : List Token) {n : Nat}
    (hn : 8 * g.itemTokens.length ≤ n) :
    test? n (g.itemTokens ++ rest) = some (g.written, .symbol "," :: rest) := by
  rw [itemTokens, List.append_assoc, List.singleton_append]
  refine g.isTerm_tokens.test? (ends_comma rest) ?_
  rw [itemTokens, List.length_append, List.length_singleton] at hn
  omega

theorem Generator.starts_itemTokens (g : Generator) (rest : List Token) : Starts (g.itemTokens ++ rest) :=
  (g.isTerm_tokens.starts.append [.symbol ","]).append rest

/-- The items of a list are read up to its bracket, after some others. -/
theorem items?_flatMap (gs : List Generator) (rest : List Token) :
    ∀ {n : Nat} (before : List (Expr String)), 8 * (gs.flatMap Generator.itemTokens).length + 1 ≤ n →
      items? n "]" before (gs.flatMap Generator.itemTokens ++ .symbol "]" :: rest) =
        some (before.reverse ++ gs.map Generator.written, rest) := by
  induction gs with
  | nil =>
    intro n before hn
    obtain ⟨k, rfl⟩ : ∃ k, n = k + 1 := ⟨n - 1, by omega⟩
    rw [List.map_nil, List.append_nil]
    rfl
  | cons g gs ih =>
    intro n before hn
    have hpos : 0 < g.itemTokens.length := by simp [Generator.itemTokens]
    rw [List.flatMap_cons, List.length_append] at hn
    obtain ⟨k, rfl⟩ : ∃ k, n = k + 1 := ⟨n - 1, by omega⟩
    have htest := g.test?_itemTokens (gs.flatMap Generator.itemTokens ++ .symbol "]" :: rest)
      (show 8 * g.itemTokens.length ≤ k by omega)
    rw [List.flatMap_cons, List.append_assoc, (g.starts_itemTokens _).items? k before htest,
      ih (g.written :: before) (by omega)]
    simp

/-- **The tokens of a list are read as the list.** -/
theorem isTerm_list (gs : List Generator) :
    IsTerm (.symbol "[" :: (gs.flatMap Generator.itemTokens ++ [.symbol "]"]))
      (.list (gs.map Generator.written)) := by
  refine ⟨.list _, fun {m rest} hm hrest ↦ ?_⟩
  simp only [List.length_cons, List.length_append, List.length_nil] at hm
  obtain ⟨k, rfl⟩ : ∃ k, m = k + 3 := ⟨m - 3, by omega⟩
  have hprimary : primary? (k + 2) (.symbol "[" :: (gs.flatMap Generator.itemTokens ++ .symbol "]" :: rest)) =
      some (.list (gs.map Generator.written), rest) := by
    cases gs with
    | nil => rfl
    | cons g gs =>
      rw [List.flatMap_cons, List.length_append] at hm
      have htest := g.test?_itemTokens (gs.flatMap Generator.itemTokens ++ .symbol "]" :: rest)
        (show 8 * g.itemTokens.length ≤ k + 1 by omega)
      rw [List.flatMap_cons, List.append_assoc, (g.starts_itemTokens _).primary?_list (k + 1) htest,
        items?_flatMap gs rest [g.written] (by omega)]
      rfl
  rw [List.cons_append, List.append_assoc, List.singleton_append]
  exact hrest.suffixed? hprimary

/-! ## Scripts -/

theorem Generated.isTerm_exprTokens (p : Generated) : IsTerm p.exprTokens p.written := by
  cases p with
  | one g => exact g.isTerm_tokens
  | several gs => exact isTerm_list gs

/-- **The tokens of a script are read as its statement.** -/
theorem Generated.parse?_tokens (p : Generated) : parse? p.tokens = some [p.binding] := by
  obtain ⟨k, hk⟩ : ∃ k, 8 * (p.tokens.length + 2) = k + 9 := ⟨_, (Nat.sub_add_cancel (by omega)).symm⟩
  have hlength : p.tokens.length = p.exprTokens.length + 3 := by
    simp [tokens]
  have hright : expression? (k + 8) (p.exprTokens ++ [.newline]) = some (p.written, [.newline]) := by
    rw [expression?, p.isTerm_exprTokens.test? (ends_newline []) (by omega)]
    rfl
  have haction : action? (k + 8) p.tokens =
      some (.assign (.variable "program") p.written, [.newline]) := by
    change (expression? (k + 8) (p.exprTokens ++ [.newline])).bind (fun r ↦
      some (Action.assign (.variable "program") r.1, r.2)) = _
    rw [hright]
    rfl
  have hsimple : simple? (k + 8) p.tokens = some (p.binding, [.newline]) := by
    change (action? (k + 8) p.tokens).map _ = _
    rw [haction]
    rfl
  have hline : line? (simple? (k + 8)) (k + 8) [] p.tokens = some ([p.binding], []) := by
    rw [line?, hsimple]
    rfl
  have hstatements : statements? (k + 9) [] p.tokens =
      (line? (simple? (k + 8)) (k + 8) [] p.tokens).bind fun r ↦ statements? (k + 8) r.1 r.2 := rfl
  rw [parse?, hk, hstatements, hline]
  rfl

end TapeMachine.Script
