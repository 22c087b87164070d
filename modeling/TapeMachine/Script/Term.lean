/-!
# Terms of a script

A script is a list of statements; what they compute is given by expressions.  The functions of a script
stand at its top level, and their bodies are lists of plain actions.

Terms are given over a type of variables: names as they stand in a script, or what the names lead to.
-/

set_option autoImplicit false
namespace TapeMachine.Script

/-- An operation between two values. -/
inductive BinaryOp where
  | add
  | sub
  | mul
  | div
  | floorDiv
  | mod
  | shiftLeft
  | shiftRight
  | and
  | or
  | xor
  | equal
  | unequal
  | less
  | lessEqual
  | greater
  | greaterEqual
  | isIn
  | isNotIn
  deriving DecidableEq, Repr

def BinaryOp.symbol : BinaryOp → String
  | add => "+"
  | sub => "-"
  | mul => "*"
  | div => "/"
  | floorDiv => "//"
  | mod => "%"
  | shiftLeft => "<<"
  | shiftRight => ">>"
  | and => "&"
  | or => "|"
  | xor => "^"
  | equal => "=="
  | unequal => "!="
  | less => "<"
  | lessEqual => "<="
  | greater => ">"
  | greaterEqual => ">="
  | isIn => "in"
  | isNotIn => "not in"

/-- An operation on a value. -/
inductive UnaryOp where
  | plus
  | minus
  | invert
  | not
  deriving DecidableEq, Repr

def UnaryOp.symbol : UnaryOp → String
  | plus => "+"
  | minus => "-"
  | invert => "~"
  | not => "not"

/-- What an assignment binds: a variable, or as many targets as there are values in a sequence. -/
inductive Target (ν : Type) where
  | variable (x : ν)
  | unpack (targets : List (Target ν))

mutual

/-- An expression.  The last `names.length` arguments of a call are the named ones, and the items of a
dictionary are its keys and values in turn. -/
inductive Expr (ν : Type) where
  | int (n : Int)
  | float (x : Float)
  | text (bytes : List UInt8)
  | bytes (bytes : List UInt8)
  | name (x : ν)
  | list (items : List (Expr ν))
  | tuple (items : List (Expr ν))
  | dict (items : List (Expr ν))
  | unary (op : UnaryOp) (e : Expr ν)
  | binary (op : BinaryOp) (l r : Expr ν)
  /-- The second value if the first one counts as true, and else the first one. -/
  | both (l r : Expr ν)
  /-- The first value if it counts as true, and else the second one. -/
  | either (l r : Expr ν)
  | cond (test yes no : Expr ν)
  | index (e i : Expr ν)
  | member (e : Expr ν) (name : String)
  | call (f : Expr ν) (args : List (Expr ν)) (names : List String)
  | comprehension (c : Clauses ν)

/-- The clauses of a list comprehension, ending in the expression for an item. -/
inductive Clauses (ν : Type) where
  | item (e : Expr ν)
  | bind (target : Target ν) (source : Expr ν) (rest : Clauses ν)
  | test (e : Expr ν) (rest : Clauses ν)

end

/-- A statement that fits on a line. -/
inductive Action (ν : Type) where
  | assign (target : Target ν) (e : Expr ν)
  /-- Replaces the value of a variable by what an operation makes of it. -/
  | update (x : ν) (op : BinaryOp) (e : Expr ν)
  | eval (e : Expr ν)
  | give (e : Option (Expr ν))
  | pass

/-- A statement at the top level of a script. -/
inductive Statement where
  | act (a : Action String)
  | define (name : String) (params : List String) (body : List (Action String))
  /-- Asks for names of another script, each with the name it is to have here. -/
  | load (names : List (String × String))

end TapeMachine.Script
