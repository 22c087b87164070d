import TapeMachine.Proofs.Source.Generator
import TapeMachine.Script.Bundled

/-!
# Generators in the bundled script library

The bundled library evaluates a generator as it is meant (`gives_known`), and so does a script that binds one
(`Generated.exec_of_eval_ok`, `Generated.exec_of_eval_error`), whatever the helpers do.

A generator is an expression twice: with the names of the helpers, as it stands in a script, and with the
helpers themselves, which the names lead to.  Both are the same expression but for how a helper is looked up
(`Generator.expr`).  Names lead where they should (`Generator.resolve_written`), and sums of generators are not
merged.

An evaluation that leaves the variables alone comes to a value or to a fault (`Gives`).  Evaluations one after
the other come to what their results come to one after the other (`Gives.bind`), and a generator is nothing but
that.
-/

set_option autoImplicit false
namespace TapeMachine.Script

/-! ## Generators as expressions -/

/-- A number as an expression.  A sign stands before the digits. -/
def countExpr {ν : Type} (n : Int) : Expr ν :=
  if n < 0 then .unary .minus (.int n.natAbs) else .int n.natAbs

/-- The generator as an expression, given how a helper stands in it. -/
def Generator.expr {ν : Type} (helper : String → ν) : Generator → Expr ν
  | run f n _ => .call (.name (helper f.name)) [countExpr n] []
  | loop body => .call (.name (helper loopName)) [body.expr helper] []
  | concat l r => .binary .add (l.expr helper) (r.expr helper)

/-- The generator as it stands in a script. -/
abbrev Generator.written (g : Generator) : Expr String :=
  g.expr fun x ↦ x

/-- The generator with the helpers that its names lead to. -/
abbrev Generator.known (g : Generator) : Expr Variable :=
  g.expr fun x ↦ .known (.helper x)

namespace Generated

def expr {ν : Type} (helper : String → ν) : Generated → Expr ν
  | one g => g.expr helper
  | several gs => .list (gs.map (Generator.expr helper))

abbrev written (p : Generated) : Expr String :=
  p.expr fun x ↦ x

abbrev known (p : Generated) : Expr Variable :=
  p.expr fun x ↦ .known (.helper x)

/-- The statement that binds `program`. -/
def binding (p : Generated) : Statement :=
  .act (.assign (.variable "program") p.written)

end Generated

/-- How the bundled library computes.  A script is taken for what it is parsed as. -/
def semantics : Semantics bundled where
  int := Value.int
  list := Value.list
  sum u v := (binary .add u v).mapError Fault.toError
  binds script p := (Token.read? script).bind parse? = some [p.binding]

/-! ## Names -/

/-- What the names of a script lead to that binds `program`. -/
def programNames (names : List String) : Names :=
  ("program", .global "program") :: knownNames names

/-- The names of helpers lead to them. -/
theorem lookup_programNames {names : List String} {x : String} (hx : x ∈ names) (hne : x ≠ "program") :
    (programNames names).lookup x = some (.known (.helper x)) := by
  have hmap : (names.map fun x ↦ (x, Variable.known (.helper x))).lookup x = some (.known (.helper x)) := by
    induction names with
    | nil => cases hx
    | cons y names ih =>
      rw [List.map_cons, List.lookup_cons]
      by_cases hxy : x = y
      · rw [← hxy, beq_self_eq_true]
      · rw [beq_eq_false_iff_ne.mpr hxy]
        exact ih ((List.mem_cons.mp hx).resolve_left hxy)
  rw [programNames, List.lookup_cons, beq_eq_false_iff_ne.mpr hne, knownNames, List.append_assoc,
    List.lookup_append, hmap]
  rfl

/-- Every name that generators use leads to a helper. -/
def Complete (names : List String) : Prop :=
  ∀ x ∈ helperNames, (programNames names).lookup x = some (.known (.helper x))

theorem Provides.complete {helpers : List (String × Helper Value)} {call : String → Helper Value}
    (h : @Provides bundled helpers call) : Complete (helpers.map (·.1)) := by
  intro x hx
  refine lookup_programNames ?_ ?_
  · obtain ⟨before, after, hsplit, -⟩ := List.lookup_eq_some_iff.mp (h x hx)
    rw [hsplit]
    simp
  · rintro rfl
    revert hx
    decide

theorem Resolver.bind_some {α β : Type} {x : Resolver α} {k : α → Resolver β} {used used' : Nat} {a : α}
    (h : x used = some (a, used')) : (x >>= k) used = k a used' := by
  change (x used >>= fun r ↦ k r.1 r.2) = _
  rw [h]
  rfl

section

variable {names : List String}

theorem resolve_countExpr (ns : Names) (n : Int) (used : Nat) :
    (countExpr n).resolve ns used = some (countExpr n, used) := by
  unfold countExpr
  split <;> rfl

theorem resolve_call {x : String} (hx : (programNames names).lookup x = some (.known (.helper x)))
    {arg : Expr String} {arg' : Expr Variable} {used : Nat}
    (h : arg.resolve (programNames names) used = some (arg', used)) :
    (Expr.call (.name x) [arg] []).resolve (programNames names) used =
      some (.call (.name (.known (.helper x))) [arg'] [], used) := by
  have hf : (Expr.name x).resolve (programNames names) used = some (.name (.known (.helper x)), used) := by
    rw [Expr.resolve, Resolver.bind_some (by rw [resolveName, hx, Option.map_some])]
    rfl
  have hargs : Expr.resolveAll (programNames names) [arg] used = some ([arg'], used) := by
    rw [Expr.resolveAll, Resolver.bind_some h]
    rfl
  rw [Expr.resolve, Resolver.bind_some hf, Resolver.bind_some hargs]
  rfl

namespace Generator

/-- A generator is no literal, which could be merged with another one in a sum. -/
theorem display?_expr {ν : Type} (helper : String → ν) (g : Generator) :
    (g.expr helper).display? = none := by
  cases g <;> rfl

/-- **The names of the helpers lead to them.** -/
theorem resolve_written (hnames : Complete names) (g : Generator) (used : Nat) :
    g.written.resolve (programNames names) used = some (g.known, used) := by
  induction g with
  | run f n hn => exact resolve_call (hnames _ f.name_mem_helperNames) (resolve_countExpr _ n used)
  | loop body ih => exact resolve_call (hnames _ loopName_mem_helperNames) ih
  | concat l r ihl ihr =>
    have hapart : mergeable l.written r.written = false := by
      rw [mergeable, display?_expr]
      rfl
    rw [written, expr, Expr.resolve, Resolver.bind_some ihl, Resolver.bind_some ihr,
      if_neg fun h ↦ Bool.false_ne_true (hapart.symm.trans h.2)]
    rfl

end Generator

namespace Generated

theorem resolve_written (hnames : Complete names) (p : Generated) (used : Nat) :
    p.written.resolve (programNames names) used = some (p.known, used) := by
  cases p with
  | one g => exact g.resolve_written hnames used
  | several gs =>
    have hall : Expr.resolveAll (programNames names) (gs.map Generator.written) used =
        some (gs.map Generator.known, used) := by
      induction gs with
      | nil => rfl
      | cons g gs ih =>
        rw [List.map_cons, Expr.resolveAll, Resolver.bind_some (g.resolve_written hnames used),
          Resolver.bind_some ih]
        rfl
    rw [written, expr, Expr.resolve, Resolver.bind_some hall]
    rfl

/-- The script that binds `program`, and nothing else. -/
def resolved (p : Generated) : Resolved :=
  ⟨[], 0, [.act (.assign (.variable (.global "program")) p.known)]⟩

theorem resolve?_binding (hnames : Complete names) (p : Generated) :
    resolve? names [p.binding] = some p.resolved := by
  have hact : (Action.assign (.variable "program") p.written).resolve (programNames names) 0 =
      some (.assign (.variable (.global "program")) p.known, 0) := by
    rw [Action.resolve, Resolver.bind_some (p.resolve_written hnames 0)]
    rfl
  have hsteps : resolveStatements (programNames names) [] [p.binding] 0 =
      some (([], p.resolved.steps), 0) := by
    change ((Action.assign (.variable "program") p.written).resolve (programNames names) 0 >>= _) = _
    rw [hact]
    rfl
  change (resolveStatements (programNames names) [] [p.binding] 0 >>= _) = _
  rw [hsteps]
  rfl

end Generated

end

/-! ## What evaluations come to -/

/-- What an evaluation comes to that leaves the variables as they are. -/
inductive Gives {α : Type} (x : Eval α) (s : Store) : Except Error α → Prop
  | value {a : α} (h : x s = .ok (a, s)) : Gives x s (.ok a)
  | fault {f : Fault} (h : x s = .error f) : Gives x s (.error f.toError)

theorem Eval.bind_ok {α β : Type} {x : Eval α} {k : α → Eval β} {s s' : Store} {a : α}
    (h : x s = .ok (a, s')) : (x >>= k) s = k a s' := by
  change (x s >>= fun r ↦ k r.1 r.2) = _
  rw [h]
  rfl

theorem Eval.bind_error {α β : Type} {x : Eval α} {k : α → Eval β} {s : Store} {f : Fault}
    (h : x s = .error f) : (x >>= k) s = .error f := by
  change (x s >>= fun r ↦ k r.1 r.2) = _
  rw [h]
  rfl

/-- **One evaluation after the other.** -/
theorem Gives.bind {α β : Type} {x : Eval α} {k : α → Eval β} {s : Store} {y : Except Error α}
    {z : α → Except Error β} (hx : Gives x s y) (hk : ∀ a, Gives (k a) s (z a)) :
    Gives (x >>= k) s (y >>= z) := by
  cases hx with
  | @value a h =>
    -- the store is what it was, so the second evaluation starts where `hk` says
    have hza := hk a
    change Gives (x >>= k) s (z a)
    generalize z a = r at hza
    cases hza with
    | value h' => exact .value ((Eval.bind_ok h).trans h')
    | fault h' => exact .fault ((Eval.bind_ok h).trans h')
  | fault h => exact .fault (Eval.bind_error h)

/-- What is computed without the variables. -/
theorem Gives.lift {α : Type} (x : Except Fault α) (s : Store) :
    Gives (liftM x : Eval α) s (x.mapError Fault.toError) := by
  cases x with
  | ok a => exact .value rfl
  | error f => exact .fault rfl

/-! ## Evaluation of generators -/

section

variable {helpers : List (String × Helper Value)} {call : Caller} {s : Store}

/-- A helper is called with its argument as it comes, and its error is kept. -/
theorem callHelper_single {x : String} {f : Helper Value} (hx : helpers.lookup x = some f) (v : Value) :
    callHelper helpers x [v] [] = (f [v] []).mapError .helper := by
  rw [callHelper, hx]
  rfl

theorem gives_countExpr (n : Int) : Gives (eval call (countExpr n)) s (.ok (.int n)) := by
  unfold countExpr
  split
  · have hn : -(n.natAbs : Int) = n := by omega
    have hminus : eval call (.unary .minus (.int n.natAbs)) s = .ok (.int (-n.natAbs), s) := rfl
    rw [hn] at hminus
    exact .value hminus
  · have hn : (n.natAbs : Int) = n := by omega
    rw [hn]
    exact .value rfl

theorem gives_call (hcall : call.helper = callHelper helpers) {x : String} {f : Helper Value}
    (hx : helpers.lookup x = some f) {arg : Expr Variable} {y : Except Error Value}
    (h : Gives (eval call arg) s y) :
    Gives (eval call (.call (.name (.known (.helper x))) [arg] [])) s (y >>= fun v ↦ f [v] []) := by
  have hf : eval call (.name (.known (.helper x))) s = .ok (.helper x, s) := rfl
  cases h with
  | @value v h =>
    have hargs : evalAll call [arg] s = .ok ([v], s) := by
      rw [evalAll, Eval.bind_ok h]
      rfl
    have hmade : eval call (.call (.name (.known (.helper x))) [arg] []) s =
        (liftM ((f [v] []).mapError Fault.helper) : Eval Value) s := by
      rw [eval, Eval.bind_ok hf, Eval.bind_ok hargs, Eval.bind_ok rfl, ← callHelper_single hx, ← hcall]
      rfl
    change Gives _ s (f [v] [])
    cases hv : f [v] [] with
    | ok w => exact .value (hmade.trans (by rw [hv]; rfl))
    | error e => exact .fault (f := .helper e) (hmade.trans (by rw [hv]; rfl))
  | fault h =>
    have hargs : evalAll call [arg] s = _ := Eval.bind_error h
    refine .fault ?_
    rw [eval, Eval.bind_ok hf, Eval.bind_error hargs]

variable {c : String → Helper Value}

/-- **A generator is evaluated from left to right.** -/
theorem gives_known (hcall : call.helper = callHelper helpers) (hc : @Provides bundled helpers c)
    (g : Generator) : Gives (eval call g.known) s (g.eval semantics c) := by
  induction g with
  | run f n hn => exact gives_call hcall (hc _ f.name_mem_helperNames) (gives_countExpr n)
  | loop body ih => exact gives_call hcall (hc _ loopName_mem_helperNames) ih
  | concat l r ihl ihr =>
    rw [Generator.known, Generator.expr, eval]
    exact ihl.bind fun u ↦ ihr.bind fun v ↦ .lift (binary .add u v) s

theorem gives_all (hcall : call.helper = callHelper helpers) (hc : @Provides bundled helpers c)
    (gs : List Generator) :
    Gives (evalAll call (gs.map Generator.known)) s (gs.mapM (Generator.eval semantics c)) := by
  induction gs with
  | nil => exact .value rfl
  | cons g gs ih =>
    rw [List.map_cons, evalAll, List.mapM_cons]
    exact (gives_known hcall hc g).bind fun v ↦ ih.bind fun vs ↦ .value rfl

theorem Generated.gives_known (hcall : call.helper = callHelper helpers)
    (hc : @Provides bundled helpers c) (p : Generated) :
    Gives (Script.eval call p.known) s (p.eval semantics c) := by
  cases p with
  | one g => exact Script.gives_known hcall hc g
  | several gs =>
    rw [known, expr, Script.eval, Generated.eval, map_eq_pure_bind]
    exact (gives_all hcall hc gs).bind fun vs ↦ .value rfl

end

/-! ## Whole scripts -/

namespace Generated

variable {helpers : List (String × Helper Value)} {p : Generated}

/-- How functions are called in a script that has none of its own. -/
def caller (helpers : List (String × Helper Value)) : Caller :=
  callFor helpers [] 1 []

theorem act_binding : act (caller helpers) (.assign (.variable (.global "program")) p.known) {} =
    (Script.eval (caller helpers) p.known {}).map fun r ↦ (none, r.2.set (.global "program") r.1) := by
  rw [act]
  change (Script.eval (caller helpers) p.known {} >>= _) = _
  cases Script.eval (caller helpers) p.known {} <;> rfl

/-- A script of one statement evaluates its expression, and binds the value. -/
theorem run_resolved : p.resolved.run helpers =
    (Script.eval (caller helpers) p.known {}).map fun r ↦ (r.2.set (.global "program") r.1).globals := by
  have hstep : runStep (caller helpers) (.act (.assign (.variable (.global "program")) p.known)) {} =
      (Script.eval (caller helpers) p.known {}).map fun r ↦ ((), r.2.set (.global "program") r.1) := by
    rw [runStep]
    change (act (caller helpers) _ {} >>= _) = _
    rw [act_binding]
    cases Script.eval (caller helpers) p.known {} <;> rfl
  -- there is one step, and what comes after it only hands on the globals
  change ((runStep (caller helpers) (.act (.assign (.variable (.global "program")) p.known)) {} >>= _) >>=
    _) = _
  rw [hstep]
  cases Script.eval (caller helpers) p.known {} <;> rfl

section

variable {c : String → Helper Value} {script : List UInt8}

theorem ofText?_of_binds (hc : @Provides bundled helpers c) (h : semantics.binds script p) :
    Resolved.ofText? (helpers.map (·.1)) script = some p.resolved := by
  have hbind : Resolved.ofText? (helpers.map (·.1)) script =
      ((Token.read? script).bind parse?).bind (resolve? (helpers.map (·.1))) :=
    (Option.bind_assoc ..).symm
  rw [hbind, show (Token.read? script).bind parse? = _ from h, Option.bind_some,
    resolve?_binding hc.complete]

/-- **A script gives `program` its value.** -/
theorem exec_of_eval_ok (hc : @Provides bundled helpers c) (h : semantics.binds script p) {v : Value}
    (hv : p.eval semantics c = .ok v) :
    ∃ globals, exec helpers script = .ok globals ∧ globals "program" = some v := by
  have hgives : Gives (Script.eval (caller helpers) p.known) {} (p.eval semantics c) :=
    gives_known rfl hc p
  rw [hv] at hgives
  cases hgives with
  | value hrun =>
    refine ⟨fun x ↦ [("program", v)].lookup x, ?_, rfl⟩
    rw [exec, ofText?_of_binds hc h]
    simp only [run_resolved, hrun]
    rfl

/-- **A script fails if the evaluation does**, and its error wraps the one of the evaluation. -/
theorem exec_of_eval_error (hc : @Provides bundled helpers c) (h : semantics.binds script p)
    {e : Error} (he : p.eval semantics c = .error e) : exec helpers script = .error (.evaluation e) := by
  have hgives : Gives (Script.eval (caller helpers) p.known) {} (p.eval semantics c) :=
    gives_known rfl hc p
  rw [he] at hgives
  cases hgives with
  | fault hrun =>
    rw [exec, ofText?_of_binds hc h]
    simp only [run_resolved, hrun]
    rfl

end

end Generated

end TapeMachine.Script
