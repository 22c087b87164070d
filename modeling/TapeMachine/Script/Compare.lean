import TapeMachine.Script.Term
import TapeMachine.Script.Value

/-!
# Comparing the values of a script

Values of different types are unequal, except that an integer may equal a number with a fraction; their order
is not defined.  Sequences are compared item by item, and the first two items that differ decide.

Values are compared down to a depth.  Those that are nested deeper than that stop the evaluation, if the
comparison comes so far.
-/

set_option autoImplicit false
namespace TapeMachine.Script

/-- The depth of a comparison. -/
def comparisonDepth : Nat :=
  10

/-- The order of two numbers with a fraction.  What is no number comes last. -/
def floatOrder (x y : Float) : Ordering :=
  if x < y then .lt
  else if y < x then .gt
  else if x == y then .eq
  else if x == x then .lt
  else if y == y then .gt
  else .eq

/-- The order of an integer and a number with a fraction. -/
def intFloatOrder (n : Int) (x : Float) : Ordering :=
  if x.isNaN then .lt
  else if x.isInf then if 0 < x then .lt else .gt
  else
    let (num, den) := (Text.Dyadic.ofFloat x).quotient
    compare (n * den) (if x < 0 then -(num : Int) else num)

/-- The order of two lists of bytes. -/
def bytesOrder : List UInt8 → List UInt8 → Ordering
  | [], [] => .eq
  | [], _ => .lt
  | _, [] => .gt
  | a :: as, b :: bs => (compare a b).then (bytesOrder as bs)

/-- The order of two values that have no items and whose order is defined. -/
def plainOrder? : Value → Value → Option Ordering
  | .bool a, .bool b => some (compare a.toNat b.toNat)
  | .int a, .int b => some (compare a b)
  | .int a, .float b => some (intFloatOrder a b)
  | .float a, .int b => some (intFloatOrder b a).swap
  | .float a, .float b => some (floatOrder a b)
  | .text a, .text b | .bytes a, .bytes b => some (bytesOrder a b)
  | _, _ => none

/-- Whether two ranges have the same numbers. -/
def rangesEqual (a b c a' b' c' : Int) : Bool :=
  let length := Value.rangeLength a b c
  length = Value.rangeLength a' b' c' && (length = 0 || (a = a' && (length = 1 || c = c')))

/-- Whether two lists agree item by item. -/
def allEqual (eq : Value → Value → Except Fault Bool) : List Value → List Value → Except Fault Bool
  | [], [] => .ok true
  | x :: xs, y :: ys => do if ← eq x y then allEqual eq xs ys else return false
  | _, _ => .ok false

/-- The value of a key, given how keys are compared. -/
def valueAt (eq : Value → Value → Except Fault Bool) (key : Value) :
    List Value → List Value → Except Fault (Option Value)
  | k :: ks, v :: vs => do if ← eq k key then return some v else valueAt eq key ks vs
  | _, _ => .ok none

/-- Whether every entry of a dictionary is found in another one. -/
def entriesEqual (eq : Value → Value → Except Fault Bool) (keys values : List Value) :
    List Value → List Value → Except Fault Bool
  | k :: ks, v :: vs => do
    match ← valueAt eq k keys values with
    | some w => if ← eq v w then entriesEqual eq keys values ks vs else return false
    | none => return false
  | _, _ => .ok true

/-- Whether two values are equal, down to a depth. -/
def equalFor : Nat → Value → Value → Except Fault Bool
  | 0, _, _ => .error .comparisonDepth
  | depth + 1, x, y =>
    match x, y with
    | .list xs, .list ys | .tuple xs, .tuple ys =>
      if xs.length ≠ ys.length then .ok false else allEqual (equalFor depth) xs ys
    | .dict ks vs, .dict ks' vs' =>
      if ks.length ≠ ks'.length then .ok false else entriesEqual (equalFor depth) ks' vs' ks vs
    | .none, .none => .ok true
    | .range a b c, .range a' b' c' => .ok (rangesEqual a b c a' b' c')
    | .elems a, .elems b => .ok (a = b)
    | .builtin a, .builtin b => .ok (a = b)
    | .helper a, .helper b => .ok (a = b)
    | .function i _, .function j _ => .ok (i = j)
    | x, y => .ok (plainOrder? x y = some .eq)

/-- Whether two values are equal. -/
def equal (x y : Value) : Except Fault Bool :=
  equalFor comparisonDepth x y

/-- Whether an order is what a comparison asks for. -/
def holds (op : BinaryOp) (o : Ordering) : Bool :=
  match op with
  | .less => o.isLT
  | .lessEqual => o.isLE
  | .greater => o.isGT
  | .greaterEqual => o.isGE
  | _ => false

/-- The first two items that differ, if any do. -/
def firstDifference (eq : Value → Value → Except Fault Bool) :
    List Value → List Value → Except Fault (Option (Value × Value))
  | x :: xs, y :: ys => do if ← eq x y then firstDifference eq xs ys else return some (x, y)
  | _, _ => .ok none

/-- Whether two values are ordered as a comparison asks for, down to a depth. -/
def orderedFor (op : BinaryOp) : Nat → Value → Value → Except Fault Bool
  | 0, _, _ => .error .comparisonDepth
  | depth + 1, x, y =>
    match x, y with
    | .list xs, .list ys | .tuple xs, .tuple ys => do
      match ← firstDifference (equalFor depth) xs ys with
      | some (x, y) => orderedFor op depth x y
      | none => return holds op (compare xs.length ys.length)
    | x, y =>
      match plainOrder? x y with
      | some o => .ok (holds op o)
      | none => .error (.unordered op.symbol x.type y.type)

/-! ## Dictionaries -/

/-- Makes sure that a value can be a key. -/
def checkKey (key : Value) : Except Fault Unit :=
  match key.unhashable? with
  | some t => .error (.unhashable t)
  | none => .ok ()

/-- The value that a dictionary has for a key. -/
def find (keys values : List Value) (key : Value) : Except Fault (Option Value) := do
  checkKey key
  valueAt equal key keys values

/-- Replaces the value of a key, or adds an entry. -/
def insertEntry (key value : Value) : List Value → List Value → Except Fault (List Value × List Value)
  | k :: ks, v :: vs => do
    if ← equal k key then return (k :: ks, value :: vs)
    else
      let (ks, vs) ← insertEntry key value ks vs
      return (k :: ks, v :: vs)
  | _, _ => .ok ([key], [value])

/-- The entries of two dictionaries.  Those of the second one win. -/
def union (keys values : List Value) : List Value → List Value → Except Fault Value
  | k :: ks, v :: vs => do
    let (keys, values) ← insertEntry k v keys values
    union keys values ks vs
  | _, _ => .ok (.dict keys values)

end TapeMachine.Script
