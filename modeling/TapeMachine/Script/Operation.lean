import TapeMachine.Script.Format
import TapeMachine.Text.Nearest

/-!
# What operators compute

The operations between values, the elements at an index, and the members of values.

Division rounds to the floor, and the remainder has the sign of the divisor.  Bitwise operations are those
of two's complement with as many bits as it takes.
-/

set_option autoImplicit false
namespace TapeMachine.Script

/-! ## Repetition -/

/-- The number of elements below which a repetition must stay, `2 ^ 30`. -/
def elementLimit : Int :=
  1073741824

/-- A list repeated.  Counts below one give the empty list, and the empty list may be repeated in any way. -/
def repeated {α : Type} (xs : List α) (n : Int) : Except Fault (List α) :=
  if xs.isEmpty then .ok []
  else if n < -2147483648 ∨ 2147483648 ≤ n then .error (.repeatCount n)
  else if n < 1 then .ok []
  else if elementLimit ≤ xs.length * n then .error (.excessiveRepeat xs.length n)
  else .ok (List.replicate n.toNat xs).flatten

/-- A value repeated, if it is one that can be. -/
def repeated? (v : Value) (n : Int) : Option (Except Fault Value) :=
  match v with
  | .text bs => some ((repeated bs n).map .text)
  | .bytes bs => some ((repeated bs n).map .bytes)
  | .list vs => some ((repeated vs n).map .list)
  | .tuple vs => some ((repeated vs n).map .tuple)
  | _ => none

/-! ## Numbers -/

/-- The remainder of two finite numbers with a fraction, which is exact and has the sign of the first one. -/
def truncatedRemainder (x y : Float) : Float :=
  let a := Text.Dyadic.ofFloat x
  let b := Text.Dyadic.ofFloat y
  let e := min a.exponent b.exponent
  let scaled (d : Text.Dyadic) : Nat := d.mantissa * Nat.pow 2 (d.exponent - e).toNat
  let size := Float.scaleB (Float.ofNat (scaled a % scaled b)) e
  if 9223372036854775808 ≤ x.toBits.toNat then -size else size

/-- The remainder that has the sign of the divisor. -/
def flooredRemainder (x y : Float) : Float :=
  let r :=
    if x.isInf || x.isNaN || y.isNaN then (0 : Float) / 0
    else if y.isInf then x
    else truncatedRemainder x y
  if decide (x < 0) != decide (y < 0) && !(r == 0) then r + y else r

/-- An operation on numbers with a fraction. -/
def floatOperation? : BinaryOp → Option (Float → Float → Except Fault Float)
  | .add => some fun x y => .ok (x + y)
  | .sub => some fun x y => .ok (x - y)
  | .mul => some fun x y => .ok (x * y)
  | .div => some fun x y => if y == 0 then .error .fractionByZero else .ok (x / y)
  | .floorDiv => some fun x y => if y == 0 then .error .divisionByZero else .ok (x / y).floor
  | .mod => some fun x y =>
    if y == 0 then .error .fractionModuloByZero else .ok (flooredRemainder x y)
  | _ => none

/-- An integer as a number with a fraction. -/
def finiteFloat (n : Int) : Except Fault Float :=
  let x := Float.ofInt n
  if x.isInf then .error .fractionRange else .ok x

/-- Applies a bitwise operation, given on single bits, to integers in two's complement. -/
def bitwise (onBits : Bool → Bool → Bool) (a b : Int) : Int :=
  let width := max a.natAbs.log2 b.natAbs.log2 + 2
  let bit (n : Int) (i : Nat) : Bool := Int.emod (Int.fdiv n (Nat.pow 2 i)) 2 = 1
  let sum := (List.range width).foldl
    (fun (acc : Int) i => if onBits (bit a i) (bit b i) then acc + Nat.pow 2 i else acc) 0
  if onBits (a < 0) (b < 0) then sum - Nat.pow 2 width else sum

/-- An operation on integers. -/
def intOperation? (op : BinaryOp) (a b : Int) : Option (Except Fault Int) :=
  match op with
  | .add => some (.ok (a + b))
  | .sub => some (.ok (a - b))
  | .mul => some (.ok (a * b))
  | .floorDiv => some (if b = 0 then .error .divisionByZero else .ok (Int.fdiv a b))
  | .mod => some (if b = 0 then .error .moduloByZero else .ok (Int.fmod a b))
  | .and => some (.ok (bitwise Bool.and a b))
  | .or => some (.ok (bitwise Bool.or a b))
  | .xor => some (.ok (bitwise Bool.xor a b))
  | _ => none

/-- Shifts an integer, to the left by less than 512 places. -/
def shifted (op : BinaryOp) (n : Int) (count : Value) : Except Fault Value :=
  match count.toSmall with
  | .error e => .error (.shift e)
  | .ok k =>
    if k < 0 then .error (.negativeShift k)
    else if op = .shiftRight then
      .ok (.int (if n.natAbs.log2 < k then (if n < 0 then -1 else 0) else Int.fdiv n (Nat.pow 2 k.toNat)))
    else if 512 ≤ k then .error (.largeShift k)
    else .ok (.int (n * Nat.pow 2 k.toNat))

/-- An operation between numbers, if at least one of them has a fraction or the operation makes one. -/
def mixedOperation? (op : BinaryOp) (l r : Value) : Option (Except Fault Value) :=
  let operate (x y : Except Fault Float) : Option (Except Fault Value) :=
    (floatOperation? op).map fun f => do return .float (← f (← x) (← y))
  match l, r with
  | .float x, .float y => operate (.ok x) (.ok y)
  | .int a, .float y => operate (finiteFloat a) (.ok y)
  | .float x, .int b => operate (.ok x) (finiteFloat b)
  | .int a, .int b => if op = .div then operate (finiteFloat a) (finiteFloat b) else none
  | _, _ => none

/-! ## Membership -/

/-- Whether some bytes stand somewhere in others. -/
def occursIn (part : List UInt8) : List UInt8 → Bool
  | [] => part.isEmpty
  | b :: bs => part.isPrefixOf (b :: bs) || occursIn part bs

/-- Whether a value is among others. -/
def isAmong (v : Value) : List Value → Except Fault Bool
  | [] => .ok false
  | x :: xs => do if ← equal x v then return true else isAmong v xs

/-- Whether a range has a number.  Only numbers of 32 bits are found. -/
def rangeHas (start stop step : Int) (n : Int) : Bool :=
  let delta := n - start
  let place := Int.tdiv delta step
  decide (-2147483648 ≤ n ∧ n < 2147483648) && Int.tmod delta step = 0 &&
    decide (0 ≤ place ∧ place < Value.rangeLength start stop step)

/-- Whether a value is in another one. -/
def contains (v container : Value) : Except Fault Bool :=
  match container with
  | .list xs | .tuple xs => isAmong v xs
  | .dict ks vs =>
    match find ks vs v with
    | .ok found => .ok found.isSome
    | .error _ => .ok false
  | .text bs =>
    match v with
    | .text part => .ok (occursIn part bs)
    | v => .error (.notInText v.type)
  | .bytes bs =>
    match v with
    | .bytes part => .ok (occursIn part bs)
    | .int n => if 0 ≤ n ∧ n < 256 then .ok (bs.contains n.toNat.toUInt8) else .error (.byteRange n)
    | v => .error (.notInBytes v.type)
  | .range a b c =>
    match v.toInteger with
    | .ok n => .ok (rangeHas a b c n)
    | .error _ => .error (.notInRange v.type)
  | container => .error (.binaryOperands "in" v.type container.type)

/-! ## Operators -/

/-- The value of an operation that neither compares nor looks for something. -/
def compute (op : BinaryOp) (l r : Value) : Except Fault Value :=
  let unknown : Except Fault Value := .error (.binaryOperands op.symbol l.type r.type)
  let ofNumbers : Except Fault Value :=
    match l, r with
    | .int a, .int b =>
      match intOperation? op a b with
      | some result => result.map .int
      | none => (mixedOperation? op l r).getD unknown
    | _, _ => (mixedOperation? op l r).getD unknown
  match op, l, r with
  | .add, .text a, .text b => .ok (.text (a ++ b))
  | .add, .bytes a, .bytes b => .ok (.bytes (a ++ b))
  | .add, .list a, .list b => .ok (.list (a ++ b))
  | .add, .tuple a, .tuple b => .ok (.tuple (a ++ b))
  | .mul, .int n, v => (repeated? v n).getD ofNumbers
  | .mul, v, .int n => (repeated? v n).getD ofNumbers
  | .mod, .text fmt, v => (filled fmt v).map .text
  | .or, .dict ks vs, .dict ks' vs' => union ks vs ks' vs'
  | .shiftLeft, .int n, count => shifted .shiftLeft n count
  | .shiftRight, .int n, count => shifted .shiftRight n count
  | _, _, _ => ofNumbers

/-- The value of a binary operator. -/
def binary (op : BinaryOp) (l r : Value) : Except Fault Value :=
  match op with
  | .equal => (equal l r).map .bool
  | .unequal => (equal l r).map fun b => .bool !b
  | .less | .lessEqual | .greater | .greaterEqual => (orderedFor op comparisonDepth l r).map .bool
  | .isIn => (contains l r).map .bool
  | .isNotIn => (contains l r).map fun b => .bool !b
  | op => compute op l r

/-- What becomes of a value that is updated by an operation.  A list is extended by all that can be gone
through. -/
def updated (op : BinaryOp) (l r : Value) : Except Fault Value :=
  match op, l, r.elements? with
  | .add, .list xs, some es => .ok (.list (xs ++ es.toList))
  | op, l, _ => binary op l r

/-- The value of a sign. -/
def unary (op : UnaryOp) (v : Value) : Except Fault Value :=
  match op, v with
  | .not, v => .ok (.bool !v.truth)
  | .minus, .int n => .ok (.int (-n))
  | .plus, .int n => .ok (.int n)
  | .invert, .int n => .ok (.int (-n - 1))
  | .minus, .float x => .ok (.float (-x))
  | .plus, .float x => .ok (.float x)
  | op, v => .error (.unaryOperand op.symbol v.type)

/-! ## Indices and members -/

/-- The place an index leads to; negative indices count from the end. -/
def place? (length i : Int) : Option Nat :=
  let j := if i < 0 then i + length else i
  if 0 ≤ j ∧ j < length then some j.toNat else none

/-- The element at an index. -/
def indexed (v i : Value) : Except Fault Value :=
  let element (length : Int) (get : Nat → Value) : Except Fault Value :=
    match i.toSmall with
    | .ok n =>
      match place? length n with
      | some j => .ok (get j)
      | none => .error (.indexRange v.type n length)
    | .error e => .error (.index v.type e)
  match v with
  | .text bs | .elems bs => element bs.length fun j => .text [bs.getD j 0]
  | .bytes bs => element bs.length fun j => .int (bs.getD j 0).toNat
  | .list xs | .tuple xs => element xs.length fun j => xs.getD j .none
  | .range a b c => element (Value.rangeLength a b c) fun j => .int (Value.rangeNumber a c j)
  | .dict ks vs => do
    match ← find ks vs i with
    | some v => return v
    | none => throw (.noKey i.written)
  | v => .error (.unindexable v.type i.type)

/-- The names of all members of a value that is no function. -/
def memberNames : Value → List String
  | .text _ =>
    ["capitalize", "codepoint_ords", "codepoints", "count", "elem_ords", "elems", "endswith", "find",
      "format", "index", "isalnum", "isalpha", "isdigit", "islower", "isspace", "istitle", "isupper",
      "join", "lower", "lstrip", "partition", "removeprefix", "removesuffix", "replace", "rfind",
      "rindex", "rpartition", "rsplit", "rstrip", "split", "splitlines", "startswith", "strip", "title",
      "upper"]
  | .bytes _ => ["elems"]
  | .list _ => ["append", "clear", "extend", "index", "insert", "pop", "remove"]
  | .dict .. => ["clear", "get", "items", "keys", "pop", "popitem", "setdefault", "update", "values"]
  | _ => []

/-- The member that was probably meant, if there is none of a name. -/
def memberMeant? (v : Value) (name : String) : Option String :=
  if (memberNames v).contains name then none else Text.nearest? name (memberNames v)

/-- The member of a value. -/
def memberOf (v : Value) (name : String) : Except Fault Value :=
  match v, Method.ofName? name with
  | .text bs, some m => .ok (.method m bs)
  | v, _ => .error (.noMember v.type name (memberMeant? v name))

end TapeMachine.Script
