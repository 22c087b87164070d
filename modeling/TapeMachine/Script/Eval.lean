import TapeMachine.Script.Builtin
import TapeMachine.Script.Library
import TapeMachine.Script.Scope

/-!
# Evaluating a script

Steps are carried out in order, and bind globals.  Expressions are evaluated by recursion on their structure,
given how to call a helper and a function of the script.  No function may be called while it is being
evaluated, so calls are nested no deeper than there are functions; that number bounds the recursion of
`callFor`, and it is never what stops an evaluation.
-/

set_option autoImplicit false
namespace TapeMachine.Script

/-- The variables that have values: the globals, the last one first, and the slots. -/
structure Store where
  globals : List (String × Value) := []
  slots : List (Option Value) := []

namespace Store

/-- A store for a function or a script with some slots. -/
def withSlots (globals : List (String × Value)) (count : Nat) (values : List (Option Value)) : Store :=
  ⟨globals, values ++ List.replicate (count - values.length) none⟩

/-- The value of a variable. -/
def get (s : Store) : Variable → Except Fault Value
  | .slot i name =>
    match s.slots[i]? with
    | some (some v) => .ok v
    | _ => .error (.unassigned "local" name)
  | .global name =>
    match s.globals.lookup name with
    | some v => .ok v
    | none => .error (.unassigned "global" name)
  | .foreign name => .error (.unassigned "local" name)
  | .known v => .ok v

/-- Gives a value to a variable. -/
def set (s : Store) (x : Variable) (v : Value) : Store :=
  match x with
  | .slot i _ => { s with slots := s.slots.set i (some v) }
  | .global name => { s with globals := (name, v) :: s.globals }
  | _ => s

end Store

/-- An evaluation, which may give values to variables, and may be stopped by a fault. -/
abbrev Eval : Type → Type :=
  StateT Store (Except Fault)

/-- How functions are called that not every script has.  The names are those of the last arguments. -/
structure Caller where
  /-- Calls a helper, by its name. -/
  helper : (name : String) → List Value → (names : List String) → Except Fault Value
  /-- Calls a function of the script, by its number, given the globals. -/
  own : (globals : List (String × Value)) → (index : Nat) → List Value → (names : List String) →
    Except Fault Value

/-- Calls a value. -/
def apply (call : Caller) (globals : List (String × Value)) (f : Value) (args : List Value)
    (names : List String) : Except Fault Value :=
  match f with
  | .builtin b => b.call args names
  | .helper name => call.helper name args names
  | .method m receiver => m.call receiver args names
  | .function index _ => call.own globals index args names
  | f => .error (.notCallable f.type)

/-! ## Assignments -/

/-- The values of a sequence for as many targets. -/
def unpacked (count : Nat) (v : Value) : Except Fault (List Value) :=
  match v.elements? with
  | none => .error (.notSequence v.type)
  | some es =>
    if count < es.length then .error (.unpackTooMany es.length count)
    else if es.length < count then .error (.unpackTooFew es.length count)
    else .ok es.toList

mutual

/-- Assigns a value to a target. -/
def assign : Target Variable → Value → Eval Unit
  | .variable x, v => modify fun s => s.set x v
  | .unpack ts, v => do
    let vs ← unpacked ts.length v
    assignAll ts vs

/-- Assigns values to targets, in order. -/
def assignAll : List (Target Variable) → List Value → Eval Unit
  | t :: ts, v :: vs => do
    assign t v
    assignAll ts vs
  | _, _ => return ()

end

/-! ## Expressions -/

/-- The keys and values of a dictionary with an entry more, whose key has to be new. -/
def addEntry (keys values : List Value) (key value : Value) : Except Fault (List Value × List Value) := do
  match ← find keys values key with
  | some _ => throw (.repeatedKey key.written)
  | none => return (keys ++ [key], values ++ [value])

mutual

/-- The value of an expression. -/
def eval (call : Caller) : Expr Variable → Eval Value
  | .int n => return .int n
  | .float x => return .float x
  | .text bs => return .text bs
  | .bytes bs => return .bytes bs
  | .name x => do (← get).get x
  | .list es => return .list (← evalAll call es)
  | .tuple es => return .tuple (← evalAll call es)
  | .dict es => evalEntries call [] [] es
  | .unary op e => do unary op (← eval call e)
  | .binary op l r => do
    let l ← eval call l
    let r ← eval call r
    binary op l r
  | .both l r => do
    let v ← eval call l
    if v.truth then eval call r else return v
  | .either l r => do
    let v ← eval call l
    if v.truth then return v else eval call r
  | .cond test yes no => do
    let v ← eval call test
    if v.truth then eval call yes else eval call no
  | .index e i => do
    let v ← eval call e
    let i ← eval call i
    indexed v i
  | .member e name => do memberOf (← eval call e) name
  | .call f args names => do
    let f ← eval call f
    let args ← evalAll call args
    apply call (← get).globals f args names
  | .comprehension c => return .list (← evalClauses call c)

/-- The values of several expressions, in order. -/
def evalAll (call : Caller) : List (Expr Variable) → Eval (List Value)
  | [] => return []
  | e :: es => do
    let v ← eval call e
    let vs ← evalAll call es
    return v :: vs

/-- A dictionary with further entries, whose keys and values are given in turn. -/
def evalEntries (call : Caller) (keys values : List Value) : List (Expr Variable) → Eval Value
  | k :: v :: rest => do
    let k ← eval call k
    let v ← eval call v
    let (keys, values) ← addEntry keys values k v
    evalEntries call keys values rest
  | _ => return .dict keys values

/-- The items of a comprehension. -/
def evalClauses (call : Caller) : Clauses Variable → Eval (List Value)
  | .item e => return [← eval call e]
  | .bind target source rest => do
    let v ← eval call source
    match v.elements? with
    | some es =>
      es.collect fun v => do
        assign target v
        evalClauses call rest
    | none => throw (.notIterable v.type)
  | .test e rest => do
    let v ← eval call e
    if v.truth then evalClauses call rest else return []

end

/-! ## Functions -/

/-- Carries out an action.  If it gives a value back, that is the value. -/
def act (call : Caller) : Action Variable → Eval (Option Value)
  | .assign target e => do
    let v ← eval call e
    assign target v
    return none
  | .update x op e => do
    let old ← (← get).get x
    let v ← eval call e
    let new ← updated op old v
    modify fun s => s.set x new
    return none
  | .eval e => do
    let _ ← eval call e
    return none
  | .give none => return some .none
  | .give (some e) => return some (← eval call e)
  | .pass => return none

/-- Carries out the actions of a function, and gives what it returns. -/
def runBody (call : Caller) : List (Action Variable) → Eval Value
  | [] => return .none
  | a :: rest => do
    match ← act call a with
    | some v => return v
    | none => runBody call rest

/-- Binds the named arguments of a call to parameters that are not bound yet. -/
def bindNamed (f : Function) : List (Option Value) → List (String × Value) → Except Fault (List (Option Value))
  | bound, [] => .ok bound
  | bound, (x, v) :: rest =>
    match f.params.idxOf? x with
    | none => .error (.unknownArgument f.name x)
    | some i =>
      if (bound.getD i none).isSome then .error (.repeatedArgument f.name x)
      else bindNamed f (bound.set i (some v)) rest

/-- The values of the parameters of a function in a call. -/
def bindArguments (f : Function) (args : List Value) (names : List String) :
    Except Fault (List (Option Value)) := do
  let (positional, named) := splitArguments args names
  if f.params.isEmpty && !args.isEmpty then throw (.tooManyArguments f.name 0 args.length)
  if f.params.length < positional.length then
    throw (.tooManyArguments f.name f.params.length positional.length)
  let free := List.replicate (f.params.length - positional.length) none
  let bound ← bindNamed f (positional.map some ++ free) named
  let missing := (f.params.zip bound).filterMap fun (x, v) => if v.isNone then some x else none
  if missing.isEmpty then return bound else throw (.missingArguments f.name missing)

/-- Calls a helper of the script. -/
def callHelper (helpers : List (String × Helper Value)) (name : String) (args : List Value)
    (names : List String) : Except Fault Value :=
  match helpers.lookup name with
  | none => .error (.notCallable "builtin_function_or_method")
  | some f =>
    let (positional, named) := splitArguments args names
    (f positional named).mapError .helper

/-- Calls functions, with at most a number of calls inside each other.  The functions being evaluated are
listed by number. -/
def callFor (helpers : List (String × Helper Value)) (functions : List Function) : Nat → List Nat → Caller
  | 0, _ => ⟨callHelper helpers, fun _ _ _ _ => .error (.recursion "")⟩
  | n + 1, active =>
    { helper := callHelper helpers
      own := fun globals index args names =>
        match functions[index]? with
        | none => .error (.notCallable "function")
        | some f => do
          if active.contains index then throw (.recursion f.name)
          let bound ← bindArguments f args names
          let store := Store.withSlots globals f.slots bound
          let (v, _) ← (runBody (callFor helpers functions n (index :: active)) f.body).run store
          return v }

/-! ## Scripts -/

/-- Carries out a step of a script. -/
def runStep (call : Caller) : Step → Eval Unit
  | .act a => do
    let _ ← act call a
    return ()
  | .define index name => modify fun s => s.set (.global name) (.function index name)
  | .load => throw .loadUnavailable

/-- The globals of a script after it was carried out. -/
def Resolved.run (helpers : List (String × Helper Value)) (script : Resolved) :
    Except Fault (List (String × Value)) := do
  let call := callFor helpers script.functions (script.functions.length + 1) []
  let ((), store) ← (script.steps.forM (runStep call)).run (Store.withSlots [] script.slots [])
  return store.globals

end TapeMachine.Script
