import TapeMachine.Script.Term
import TapeMachine.Script.Value

/-!
# What the names of a script lead to

Before a script is evaluated, every name in it must lead somewhere: to a variable of a comprehension or a
function, to a name that another script was asked for, to a global of the script, to a helper that the script
was given, or to a value that every script knows.

A global is bound once in a script.  The name of a helper, or one that every script knows, may be bound anew,
and then means the new thing everywhere.  The variables of a function, and of the comprehensions in it, have
numbered slots; a comprehension at the top level has its slots there.  A slot keeps its value until it gets
another one, also over the rounds of the comprehension that binds it.

Blocks do not care for order: a name that is bound anywhere in a function is a variable of it everywhere, and
one bound by any clause of a comprehension is one of all its clauses.  Only the first source of a comprehension
stands outside.
-/

set_option autoImplicit false
namespace TapeMachine.Script

/-- What a name leads to. -/
inductive Variable where
  | slot (index : Nat) (name : String)
  | global (name : String)
  /-- A name of another script, which there never is. -/
  | foreign (name : String)
  | known (v : Value)

/-- The names that can be seen, those of inner blocks first. -/
abbrev Names : Type :=
  List (String × Variable)

/-- What a script knows: its helpers, and what every script knows. -/
def knownNames (helpers : List String) : Names :=
  helpers.map (fun x => (x, .known (.helper x))) ++
    [("None", .known .none), ("True", .known (.bool true)), ("False", .known (.bool false))] ++
    Builtin.all.map fun b => (b.name, .known (.builtin b))

/-- The variables of a block, in slots from a number on. -/
def blockNames (first : Nat) (names : List String) : Names :=
  names.zipIdx.map fun (x, i) => (x, .slot (first + i) x)

/-! ## What is bound -/

mutual

/-- The names that a target binds. -/
def Target.names : Target String → List String
  | .variable x => [x]
  | .unpack ts => Target.allNames ts

/-- The names that several targets bind. -/
def Target.allNames : List (Target String) → List String
  | [] => []
  | t :: ts => t.names ++ Target.allNames ts

end

/-- The names that the clauses of a comprehension bind. -/
def Clauses.names : Clauses String → List String
  | .item _ => []
  | .bind t _ rest => t.names ++ rest.names
  | .test _ rest => rest.names

/-- The names an action binds. -/
def Action.names : Action String → List String
  | .assign t _ => t.names
  | .update x _ _ => [x]
  | _ => []

/-- The globals a statement binds. -/
def Statement.globals : Statement → List String
  | .act a => a.names
  | .define name _ _ => [name]
  | .load _ => []

/-- The names a statement asks another script for. -/
def Statement.foreign : Statement → List String
  | .load names => names.map (·.2)
  | _ => []

/-! ## Resolving names -/

/-- Resolves names, and counts the slots in use. -/
abbrev Resolver : Type → Type :=
  StateT Nat Option

/-- What a name leads to. -/
def resolveName (ns : Names) (x : String) : Resolver Variable :=
  fun used => (ns.lookup x).map fun v => (v, used)

/-- Takes slots for the variables of a block. -/
def enter (names : List String) : Resolver Names :=
  fun used =>
    let names := names.eraseDups
    some (blockNames used names, used + names.length)

/-- The kinds of expression that are merged when they are added. -/
inductive Display where
  | text
  | bytes
  | list
  | tuple
  deriving DecidableEq

/-- The kind of an expression that can be merged. -/
def Expr.display? {ν : Type} : Expr ν → Option Display
  | .text _ => some .text
  | .bytes _ => some .bytes
  | .list _ => some .list
  | .tuple _ => some .tuple
  | _ => none

/-- The last term of a sum. -/
def Expr.lastTerm {ν : Type} : Expr ν → Expr ν
  | .binary .add _ r => r
  | e => e

/-- Two expressions of the same kind as one. -/
def Expr.merge {ν : Type} : Expr ν → Expr ν → Expr ν
  | .text a, .text b => .text (a ++ b)
  | .bytes a, .bytes b => .bytes (a ++ b)
  | .list a, .list b => .list (a ++ b)
  | .tuple a, .tuple b => .tuple (a ++ b)
  | a, _ => a

/-- Merges an expression into the last term of a sum. -/
def Expr.mergeLast {ν : Type} (l r : Expr ν) : Expr ν :=
  match l with
  | .binary .add a b => .binary .add a (b.merge r)
  | l => l.merge r

/-- Whether two neighbouring terms of a sum are merged.  Then the items of both are evaluated before the sum. -/
def mergeable (l r : Expr String) : Bool :=
  r.display?.isSome && l.lastTerm.display? = r.display?

mutual

/-- Resolves the names of a target. -/
def Target.resolve (ns : Names) : Target String → Resolver (Target Variable)
  | .variable x => return .variable (← resolveName ns x)
  | .unpack ts => return .unpack (← Target.resolveAll ns ts)

/-- Resolves the names of several targets. -/
def Target.resolveAll (ns : Names) : List (Target String) → Resolver (List (Target Variable))
  | [] => return []
  | t :: ts => do
    let t ← t.resolve ns
    let ts ← Target.resolveAll ns ts
    return t :: ts

end

mutual

/-- Resolves the names of an expression. -/
def Expr.resolve (ns : Names) : Expr String → Resolver (Expr Variable)
  | .int n => return .int n
  | .float x => return .float x
  | .text bs => return .text bs
  | .bytes bs => return .bytes bs
  | .name x => return .name (← resolveName ns x)
  | .list es => return .list (← Expr.resolveAll ns es)
  | .tuple es => return .tuple (← Expr.resolveAll ns es)
  | .dict es => return .dict (← Expr.resolveAll ns es)
  | .unary op e => return .unary op (← e.resolve ns)
  | .binary op l r => do
    let left ← l.resolve ns
    let right ← r.resolve ns
    if op = .add ∧ mergeable l r then return left.mergeLast right
    return .binary op left right
  | .both l r => do
    let l ← l.resolve ns
    return .both l (← r.resolve ns)
  | .either l r => do
    let l ← l.resolve ns
    return .either l (← r.resolve ns)
  | .cond test yes no => do
    let test ← test.resolve ns
    let yes ← yes.resolve ns
    return .cond test yes (← no.resolve ns)
  | .index e i => do
    let e ← e.resolve ns
    return .index e (← i.resolve ns)
  | .member e name => return .member (← e.resolve ns) name
  | .call f args names => do
    let f ← f.resolve ns
    return .call f (← Expr.resolveAll ns args) names
  | .comprehension c => do
    let inner ← enter c.names
    return .comprehension (← c.resolve ns (inner ++ ns))

/-- Resolves the names of several expressions. -/
def Expr.resolveAll (ns : Names) : List (Expr String) → Resolver (List (Expr Variable))
  | [] => return []
  | e :: es => do
    let e ← e.resolve ns
    let es ← Expr.resolveAll ns es
    return e :: es

/-- Resolves the names of some clauses, given those that the next source can see and those of the block. -/
def Clauses.resolve (outer inner : Names) : Clauses String → Resolver (Clauses Variable)
  | .item e => return .item (← e.resolve inner)
  | .bind t source rest => do
    let source ← source.resolve outer
    let t ← t.resolve inner
    return .bind t source (← rest.resolve inner inner)
  | .test e rest => do
    let e ← e.resolve inner
    return .test e (← rest.resolve inner inner)

end

/-- Resolves the names of an action. -/
def Action.resolve (ns : Names) : Action String → Resolver (Action Variable)
  | .assign t e => do
    let e ← e.resolve ns
    return .assign (← t.resolve ns) e
  | .update x op e => do
    let e ← e.resolve ns
    return .update (← resolveName ns x) op e
  | .eval e => return .eval (← e.resolve ns)
  | .give none => return .give none
  | .give (some e) => return .give (some (← e.resolve ns))
  | .pass => return .pass

/-! ## Scripts -/

/-- A function.  Its first slots are those of its parameters. -/
structure Function where
  name : String
  params : List String
  slots : Nat
  body : List (Action Variable)

/-- A step at the top level of a script. -/
inductive Step where
  | act (a : Action Variable)
  /-- Binds a name to the function with a number. -/
  | define (index : Nat) (name : String)
  | load

/-- A script whose names all lead somewhere. -/
structure Resolved where
  functions : List Function
  slots : Nat
  steps : List Step

/-- Resolves the names of a function. -/
def resolveFunction? (ns : Names) (name : String) (params : List String)
    (body : List (Action String)) : Option Function := do
  guard params.Nodup
  let locals := (params ++ body.flatMap Action.names).eraseDups
  let (body, slots) ← (body.mapM (Action.resolve (blockNames 0 locals ++ ns))).run locals.length
  return { name, params, slots, body }

/-- Resolves the names of some statements.  Functions are numbered in order, and those before are given last one
first. -/
def resolveStatements (ns : Names) : List Function → List Statement → Resolver (List Function × List Step)
  | functions, [] => return (functions.reverse, [])
  | functions, .act a :: rest => do
    let a ← a.resolve ns
    let (functions, steps) ← resolveStatements ns functions rest
    return (functions, .act a :: steps)
  | functions, .define name params body :: rest => do
    let f ← StateT.lift (resolveFunction? ns name params body)
    let (all, steps) ← resolveStatements ns (f :: functions) rest
    return (all, .define functions.length name :: steps)
  | functions, .load _ :: rest => do
    let (functions, steps) ← resolveStatements ns functions rest
    return (functions, .load :: steps)

/-- Whether no name is bound twice: no global, no name of another script, and no global that was asked for before
it is bound. -/
def boundOnce : (globals foreign : List String) → List Statement → Bool
  | _, _, [] => true
  | globals, foreign, s :: rest =>
    s.globals.all (fun x => !globals.contains x && !foreign.contains x) && decide s.globals.Nodup &&
      s.foreign.all (fun x => !foreign.contains x) && decide s.foreign.Nodup &&
      boundOnce (s.globals ++ globals) (s.foreign ++ foreign) rest

/-- Whether other scripts are asked only for names they can give away. -/
def Statement.asksForPublic : Statement → Bool
  | .load names => names.all fun (x, _) => x ≠ "" && x.toList.head? ≠ some '_'
  | _ => true

/-- All names at the top level of a script. -/
def topNames (helpers : List String) (script : List Statement) : Names :=
  (script.flatMap Statement.foreign).map (fun x => (x, .foreign x)) ++
    (script.flatMap Statement.globals).map (fun x => (x, .global x)) ++ knownNames helpers

/-- The script of some statements, if all its names lead somewhere and none is bound twice. -/
def resolve? (helpers : List String) (statements : List Statement) : Option Resolved := do
  guard (boundOnce [] [] statements && statements.all Statement.asksForPublic)
  let ((functions, steps), slots) ← (resolveStatements (topNames helpers statements) [] statements).run 0
  return { functions, slots, steps }

end TapeMachine.Script
