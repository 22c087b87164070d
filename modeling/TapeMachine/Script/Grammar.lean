import TapeMachine.Script.Term
import TapeMachine.Script.Token

/-!
# The grammar of a script

Tokens are read as statements by recursive descent.  Every reader takes the tokens before it and gives back
those it leaves; a text that follows no rule is refused, without a reason.

Binary operators bind, from the weakest on: `or`, `and`, the comparisons, `|`, `^`, `&`, the shifts, then `+`
and `-`, then `*`, `/`, `//` and `%`.  They associate to the left, except that comparisons do not
associate at all.  The word `not` binds tighter than `and`.  A sign binds tighter than any of them, and
indices, calls and members tighter still.

The readers call each other in a circle.  The number they are given bounds how deep; a script with `n` tokens
never needs more than a fixed multiple of `n`.
-/

set_option autoImplicit false
namespace TapeMachine.Script

namespace Grammar

/-- What an operator makes of its operands. -/
inductive Operator where
  | either
  | both
  | plain (op : BinaryOp)

/-- How tight `not` binds. -/
def notLevel : Nat :=
  2

/-- How tight comparisons bind. -/
def comparisonLevel : Nat :=
  3

/-- The binary operator at the front of some tokens, how tight it binds, and the tokens after it. -/
def operator? : List Token → Option (Operator × Nat × List Token)
  | .keyword "or" :: ts => some (.either, 0, ts)
  | .keyword "and" :: ts => some (.both, 1, ts)
  | .keyword "in" :: ts => some (.plain .isIn, comparisonLevel, ts)
  | .keyword "not" :: .keyword "in" :: ts => some (.plain .isNotIn, comparisonLevel, ts)
  | .symbol s :: ts =>
    let plain (op : BinaryOp) (level : Nat) := some (.plain op, level, ts)
    match s with
    | "==" => plain .equal comparisonLevel
    | "!=" => plain .unequal comparisonLevel
    | "<" => plain .less comparisonLevel
    | "<=" => plain .lessEqual comparisonLevel
    | ">" => plain .greater comparisonLevel
    | ">=" => plain .greaterEqual comparisonLevel
    | "|" => plain .or 4
    | "^" => plain .xor 5
    | "&" => plain .and 6
    | "<<" => plain .shiftLeft 7
    | ">>" => plain .shiftRight 7
    | "+" => plain .add 8
    | "-" => plain .sub 8
    | "*" => plain .mul 9
    | "/" => plain .div 9
    | "//" => plain .floorDiv 9
    | "%" => plain .mod 9
    | _ => none
  | _ => none

/-- An operator between its operands. -/
def Operator.apply (op : Operator) (l r : Expr String) : Expr String :=
  match op with
  | either => .either l r
  | both => .both l r
  | plain op => .binary op l r

/-- The sign that a symbol is. -/
def sign? : String → Option UnaryOp
  | "-" => some .minus
  | "+" => some .plus
  | "~" => some .invert
  | _ => none

/-- Whether a symbol closes brackets, so that a comma may stand before it. -/
def closes (close : String) : List Token → Bool
  | .symbol s :: _ => s = close
  | _ => false

mutual

/-- What an expression says that is assigned to: a name, or several in brackets or with commas. -/
def target? : Expr String → Option (Target String)
  | .name x => some (.variable x)
  | .list es | .tuple es => (targets? es).map .unpack
  | _ => none

def targets? : List (Expr String) → Option (List (Target String))
  | [] => some []
  | e :: es => do
    let t ← target? e
    let ts ← targets? es
    return t :: ts

end

/-- The arguments of a call: those without a name, and those with one, last one first. -/
structure Arguments where
  positional : List (Expr String) := []
  named : List (String × Expr String) := []

/-- The greatest number of arguments of either kind. -/
def argumentLimit : Nat :=
  255

/-- Adds an argument.  One without a name may not follow one that has one, and no name is given twice. -/
def Arguments.add? (as : Arguments) (name : Option String) (e : Expr String) : Option Arguments :=
  match name with
  | none => if as.named.isEmpty then some { as with positional := e :: as.positional } else none
  | some s =>
    if (as.named.map (·.1)).contains s then none else some { as with named := (s, e) :: as.named }

/-- The call of an expression. -/
def Arguments.call? (as : Arguments) (f : Expr String) : Option (Expr String) :=
  if as.positional.length ≤ argumentLimit ∧ as.named.length ≤ argumentLimit then
    let named := as.named.reverse
    some (.call f (as.positional.reverse ++ named.map (·.2)) (named.map (·.1)))
  else none

mutual

/-- An expression, which may choose between two by a condition. -/
def test? : Nat → List Token → Option (Expr String × List Token)
  | 0, _ => none
  | n + 1, ts => do
    let (yes, ts) ← binary? n 0 ts
    match ts with
    | .keyword "if" :: ts =>
      let (c, ts) ← binary? n 0 ts
      match ts with
      | .keyword "else" :: ts =>
        let (no, ts) ← test? n ts
        return (.cond c yes no, ts)
      | _ => none
    | _ => return (yes, ts)

/-- An expression of operators that bind at least as tight as a level. -/
def binary? : Nat → (level : Nat) → List Token → Option (Expr String × List Token)
  | 0, _, _ => none
  | n + 1, level, ts =>
    match ts with
    | .keyword "not" :: ts =>
      if level ≤ notLevel then do
        let (e, ts) ← binary? n notLevel ts
        operators? n level false (.unary .not e) ts
      else none
    | ts => do
      let (e, ts) ← suffixed? n ts
      operators? n level false e ts

/-- The operators that follow a first operand and bind at least as tight as a level.  After a comparison no
other comparison may follow. -/
def operators? :
    Nat → (level : Nat) → (compared : Bool) → Expr String → List Token →
      Option (Expr String × List Token)
  | 0, _, _, _, _ => none
  | n + 1, level, compared, l, ts =>
    match operator? ts with
    | some (op, tight, rest) =>
      if tight < level then some (l, ts)
      else if compared ∧ tight = comparisonLevel then none
      else do
        let (r, rest) ← binary? n (tight + 1) rest
        operators? n level (tight = comparisonLevel) (op.apply l r) rest
    | none => some (l, ts)

/-- A primary expression with what is applied to it. -/
def suffixed? : Nat → List Token → Option (Expr String × List Token)
  | 0, _ => none
  | n + 1, ts => do
    let (e, ts) ← primary? n ts
    suffixes? n e ts

/-- The members, calls and indices that follow an expression. -/
def suffixes? : Nat → Expr String → List Token → Option (Expr String × List Token)
  | 0, _, _ => none
  | n + 1, e, ts =>
    match ts with
    | .symbol "." :: .name s :: ts => suffixes? n (.member e s) ts
    | .symbol "." :: _ => none
    | .symbol "(" :: ts => do
      let (args, ts) ← arguments? n {} ts
      let e ← args.call? e
      suffixes? n e ts
    | .symbol "[" :: ts => do
      let (i, ts) ← expression? n ts
      match ts with
      | .symbol "]" :: ts => suffixes? n (.index e i) ts
      | _ => none
    | ts => some (e, ts)

/-- A literal, a name, a sign before an expression, or an expression in brackets. -/
def primary? : Nat → List Token → Option (Expr String × List Token)
  | 0, _ => none
  | n + 1, ts =>
    match ts with
    | .name s :: ts => some (.name s, ts)
    | .int k :: ts => some (.int k, ts)
    | .float x :: ts => some (.float x, ts)
    | .text bytes :: ts => some (.text bytes, ts)
    | .bytes bytes :: ts => some (.bytes bytes, ts)
    | .symbol "(" :: .symbol ")" :: ts => some (.tuple [], ts)
    | .symbol "(" :: ts => do
      let (e, ts) ← test? n ts
      match ts with
      | .symbol ")" :: ts => return (e, ts)
      | .symbol "," :: ts =>
        let (es, ts) ← items? n ")" [e] ts
        return (.tuple es, ts)
      | _ => none
    | .symbol "[" :: .symbol "]" :: ts => some (.list [], ts)
    | .symbol "[" :: ts => do
      let (e, ts) ← test? n ts
      match ts with
      | .keyword "for" :: _ =>
        let (c, ts) ← clauses? n e ts
        return (.comprehension c, ts)
      | .symbol "]" :: ts => return (.list [e], ts)
      | .symbol "," :: ts =>
        let (es, ts) ← items? n "]" [e] ts
        return (.list es, ts)
      | _ => none
    | .symbol "\x7b" :: ts => do
      let (es, ts) ← entries? n [] ts
      return (.dict es, ts)
    | .symbol s :: ts => do
      let op ← sign? s
      let (e, ts) ← suffixed? n ts
      return (.unary op e, ts)
    | _ => none

/-- Items up to a closing bracket, which a comma may precede.  Those before are given, last one first. -/
def items? :
    Nat → (close : String) → List (Expr String) → List Token → Option (List (Expr String) × List Token)
  | 0, _, _, _ => none
  | n + 1, close, before, ts =>
    if closes close ts then some (before.reverse, ts.tail)
    else do
      let (e, ts) ← test? n ts
      match ts with
      | .symbol "," :: ts => items? n close (e :: before) ts
      | ts => if closes close ts then some ((e :: before).reverse, ts.tail) else none

/-- The keys and values of a dictionary, in turn.  Those before are given, last one first. -/
def entries? : Nat → List (Expr String) → List Token → Option (List (Expr String) × List Token)
  | 0, _, _ => none
  | n + 1, before, ts =>
    match ts with
    | .symbol "\x7d" :: ts => some (before.reverse, ts)
    | ts => do
      let (k, ts) ← test? n ts
      match ts with
      | .symbol ":" :: ts =>
        let (v, ts) ← test? n ts
        match ts with
        | .symbol "," :: ts => entries? n (v :: k :: before) ts
        | .symbol "\x7d" :: ts => some ((v :: k :: before).reverse, ts)
        | _ => none
      | _ => none

/-- The arguments of a call after some others. -/
def arguments? : Nat → Arguments → List Token → Option (Arguments × List Token)
  | 0, _, _ => none
  | n + 1, before, ts =>
    match ts with
    | .symbol ")" :: ts => some (before, ts)
    | .name s :: .symbol "=" :: ts => do
      let (e, ts) ← test? n ts
      let before ← before.add? (some s) e
      moreArguments? n before ts
    | ts => do
      let (e, ts) ← test? n ts
      let before ← before.add? none e
      moreArguments? n before ts

/-- What follows an argument of a call. -/
def moreArguments? : Nat → Arguments → List Token → Option (Arguments × List Token)
  | 0, _, _ => none
  | n + 1, before, ts =>
    match ts with
    | .symbol ")" :: ts => some (before, ts)
    | .symbol "," :: ts => arguments? n before ts
    | _ => none

/-- The clauses of a comprehension, whose item was read before them. -/
def clauses? : Nat → Expr String → List Token → Option (Clauses String × List Token)
  | 0, _, _ => none
  | n + 1, e, ts =>
    match ts with
    | .keyword "for" :: ts => do
      let (target, ts) ← loopTarget? n ts
      match ts with
      | .keyword "in" :: ts =>
        let (source, ts) ← binary? n 0 ts
        let (rest, ts) ← clauses? n e ts
        return (.bind target source rest, ts)
      | _ => none
    | .keyword "if" :: ts => do
      let (c, ts) ← binary? n 0 ts
      let (rest, ts) ← clauses? n e ts
      return (.test c rest, ts)
    | .symbol "]" :: ts => some (.item e, ts)
    | _ => none

/-- What a clause of a comprehension binds. -/
def loopTarget? : Nat → List Token → Option (Target String × List Token)
  | 0, _ => none
  | n + 1, ts => do
    let (e, ts) ← suffixed? n ts
    match ts with
    | .symbol "," :: _ =>
      let (es, ts) ← loopTargets? n [e] ts
      return (.unpack (← targets? es), ts)
    | ts => return (← target? e, ts)

/-- What follows the first of several expressions that a clause binds. -/
def loopTargets? :
    Nat → List (Expr String) → List Token → Option (List (Expr String) × List Token)
  | 0, _, _ => none
  | n + 1, before, ts =>
    match ts with
    | .symbol "," :: ts => do
      let (e, ts) ← suffixed? n ts
      loopTargets? n (e :: before) ts
    | ts => some (before.reverse, ts)

/-- An expression, or several with commas between them, which make a tuple. -/
def expression? : Nat → List Token → Option (Expr String × List Token)
  | 0, _ => none
  | n + 1, ts => do
    let (e, ts) ← test? n ts
    match ts with
    | .symbol "," :: ts =>
      let (es, ts) ← expressions? n [e] ts
      return (.tuple es, ts)
    | ts => return (e, ts)

/-- Expressions with commas between them, after some others. -/
def expressions? :
    Nat → List (Expr String) → List Token → Option (List (Expr String) × List Token)
  | 0, _, _ => none
  | n + 1, before, ts => do
    let (e, ts) ← test? n ts
    match ts with
    | .symbol "," :: ts => expressions? n (e :: before) ts
    | ts => return ((e :: before).reverse, ts)

end

/-! ## Statements -/

/-- Whether a line or a statement on it ends here. -/
def endsStatement : List Token → Bool
  | .newline :: _ | .symbol ";" :: _ | [] => true
  | _ => false

/-- The operation that an assigning symbol carries out before. -/
def update? : String → Option BinaryOp
  | "+=" => some .add
  | "-=" => some .sub
  | "*=" => some .mul
  | "/=" => some .div
  | "//=" => some .floorDiv
  | "%=" => some .mod
  | "&=" => some .and
  | "|=" => some .or
  | "^=" => some .xor
  | "<<=" => some .shiftLeft
  | ">>=" => some .shiftRight
  | _ => none

/-- A plain statement. -/
def action? (n : Nat) (ts : List Token) : Option (Action String × List Token) :=
  match ts with
  | .keyword "pass" :: ts => some (.pass, ts)
  | .keyword "return" :: ts =>
    if endsStatement ts then some (.give none, ts)
    else (expression? n ts).map fun (e, ts) => (.give (some e), ts)
  | ts => do
    let (l, ts) ← expression? n ts
    match ts with
    | .symbol "=" :: ts =>
      let (r, ts) ← expression? n ts
      return (.assign (← target? l) r, ts)
    | .symbol s :: rest =>
      match update? s, l with
      | some op, .name x =>
        let (r, rest) ← expression? n rest
        return (.update x op r, rest)
      | some _, _ => none
      | none, l => return (.eval l, ts)
    | ts => return (.eval l, ts)

/-- A text as a name. -/
def nameOf (bytes : List UInt8) : String :=
  String.ofList ((Text.decode bytes).map fun c => c.getD '\ufffd')

/-- The names of a load statement, behind the text that says where from.  A name may be given another one. -/
def loadNames? : List Token → Option (List (String × String) × List Token)
  | .symbol ")" :: ts => some ([], ts)
  | .symbol "," :: .symbol ")" :: ts => some ([], ts)
  | .symbol "," :: .text bytes :: ts => do
    let (names, ts) ← loadNames? ts
    return ((nameOf bytes, nameOf bytes) :: names, ts)
  | .symbol "," :: .name s :: .symbol "=" :: .text bytes :: ts => do
    let (names, ts) ← loadNames? ts
    return ((nameOf bytes, s) :: names, ts)
  | _ => none

/-- A statement that fits on a line, at the top level. -/
def simple? (n : Nat) (ts : List Token) : Option (Statement × List Token) :=
  match ts with
  | .keyword "load" :: .symbol "(" :: .text _ :: ts =>
    match loadNames? ts with
    | some (name :: names, ts) => some (.load (name :: names), ts)
    | _ => none
  | .keyword "return" :: _ => none
  | ts => (action? n ts).map fun (a, ts) => (.act a, ts)

/-- A line of statements, after some others, last one first. -/
def line? {α : Type} (one? : List Token → Option (α × List Token)) :
    Nat → List α → List Token → Option (List α × List Token)
  | 0, _, _ => none
  | n + 1, before, ts => do
    let (a, ts) ← one? ts
    match ts with
    | .newline :: ts | .symbol ";" :: .newline :: ts => some (a :: before, ts)
    | .symbol ";" :: ts => line? one? n (a :: before) ts
    | _ => none

/-- The lines of a block, up to its end, after some statements, last one first. -/
def block? : Nat → List (Action String) → List Token → Option (List (Action String) × List Token)
  | 0, _, _ => none
  | n + 1, before, ts => do
    let (before, ts) ← line? (action? n) n before ts
    match ts with
    | .dedent :: ts => some (before.reverse, ts)
    | ts => block? n before ts

/-- The body of a function: a block, or the rest of its line. -/
def body? (n : Nat) : List Token → Option (List (Action String) × List Token)
  | .newline :: .indent :: ts => block? n [] ts
  | ts => (line? (action? n) n [] ts).map fun (actions, ts) => (actions.reverse, ts)

/-- The parameters of a function, up to the closing bracket. -/
def params? : List Token → Option (List String × List Token)
  | .symbol ")" :: ts => some ([], ts)
  | .name s :: .symbol ")" :: ts => some ([s], ts)
  | .name s :: .symbol "," :: ts => do
    let (names, ts) ← params? ts
    return (s :: names, ts)
  | _ => none

/-- A function, after the word that announces it. -/
def function? (n : Nat) : List Token → Option (Statement × List Token)
  | .name s :: .symbol "(" :: ts => do
    let (params, ts) ← params? ts
    match ts with
    | .symbol ":" :: ts =>
      let (body, ts) ← body? n ts
      return (.define s params body, ts)
    | _ => none
  | _ => none

/-- The statements of a script, after some others, last one first. -/
def statements? : Nat → List Statement → List Token → Option (List Statement)
  | 0, _, _ => none
  | _, before, [] => some before.reverse
  | n + 1, before, t :: ts =>
    match t with
    | .newline => statements? n before ts
    | .keyword "def" => do
      let (f, ts) ← function? n ts
      statements? n (f :: before) ts
    | t => do
      let (before, ts) ← line? (simple? n) n before (t :: ts)
      statements? n before ts

end Grammar

/-- Reads a script from its tokens. -/
def parse? (tokens : List Token) : Option (List Statement) :=
  Grammar.statements? (8 * (tokens.length + 2)) [] tokens

end TapeMachine.Script
