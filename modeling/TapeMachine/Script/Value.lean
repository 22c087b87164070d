import TapeMachine.Script.Fault
import TapeMachine.Text.Double
import TapeMachine.Word

/-!
# Values of a script

Texts are byte strings: their length, their indices and their elements are bytes.  Integers have any size.
A dictionary keeps its entries in the order in which they were inserted.

The numbers of a range are words, and so is its length; both are computed modulo `2 ^ 64`.  So the length of
a range that spans more than half of all words may come out too small, or negative, and then the range has
no numbers.
-/

set_option autoImplicit false
namespace TapeMachine.Script

/-- The functions every script can use. -/
inductive Builtin where
  | range
  | len
  | ord
  | int
  | str
  | fail
  deriving DecidableEq, Repr

namespace Builtin

def name : Builtin → String
  | range => "range"
  | len => "len"
  | ord => "ord"
  | int => "int"
  | str => "str"
  | fail => "fail"

def all : List Builtin :=
  [range, len, ord, int, str, fail]

end Builtin

/-- The functions that belong to a text. -/
inductive Method where
  | join
  | elems
  deriving DecidableEq, Repr

namespace Method

def name : Method → String
  | join => "join"
  | elems => "elems"

def ofName? (s : String) : Option Method :=
  [join, elems].find? fun m => m.name = s

end Method

/-- A value. -/
inductive Value where
  | none
  | bool (b : Bool)
  | int (n : Int)
  | float (x : Float)
  | text (bytes : List UInt8)
  | bytes (bytes : List UInt8)
  | list (items : List Value)
  | tuple (items : List Value)
  /-- As many keys as values. -/
  | dict (keys values : List Value)
  | range (start stop step : Int)
  /-- The bytes of a text, one by one. -/
  | elems (bytes : List UInt8)
  | builtin (b : Builtin)
  /-- A function that the script was given from outside, by its name. -/
  | helper (name : String)
  | method (m : Method) (receiver : List UInt8)
  /-- A function of the script, by its number. -/
  | function (index : Nat) (name : String)

namespace Value

/-- The name of the type of a value. -/
def type : Value → String
  | none => "NoneType"
  | bool _ => "bool"
  | int _ => "int"
  | float _ => "float"
  | text _ => "string"
  | bytes _ => "bytes"
  | list _ => "list"
  | tuple _ => "tuple"
  | dict .. => "dict"
  | range .. => "range"
  | elems _ => "string.elems"
  | builtin _ | helper _ | method .. => "builtin_function_or_method"
  | function .. => "function"

/-! ## Elements -/

/-- The length of a range. -/
def rangeLength (start stop step : Int) : Int :=
  if 0 < step ∧ start < stop then wrap (Int.tdiv (wrap (stop - 1 - start)) step + 1)
  else if step < 0 ∧ stop < start then
    wrap (Int.tdiv (wrap (start - 1 - stop)) (wrap (-step)) + 1)
  else 0

/-- A number of a range. -/
def rangeNumber (start step : Int) (i : Nat) : Int :=
  wrap (start + i * step)

/-- The number of elements of a value that has elements. -/
def length? : Value → Option Int
  | text bs | bytes bs | elems bs => some bs.length
  | list xs | tuple xs | dict xs _ => some xs.length
  | range a b c => some (rangeLength a b c)
  | _ => Option.none

/-- What can be gone through one by one: some items, or the numbers of a range. -/
inductive Elements where
  | items (vs : List Value)
  | numbers (start step : Int) (count : Nat)

/-- The elements of a value that can be gone through. -/
def elements? : Value → Option Elements
  | list xs | tuple xs | dict xs _ => some (.items xs)
  | range a b c => some (.numbers a c (rangeLength a b c).toNat)
  | elems bs => some (.items (bs.map fun b => text [b]))
  | _ => Option.none

namespace Elements

/-- The elements from the front, up to a number of them. -/
def take (n : Nat) : Elements → List Value
  | items vs => vs.take n
  | numbers start step count => (List.range (min n count)).map fun i => int (rangeNumber start step i)

/-- All elements. -/
def toList : Elements → List Value
  | items vs => vs
  | numbers start step count => take count (numbers start step count)

/-- How many elements there are. -/
def length : Elements → Nat
  | items vs => vs.length
  | numbers _ _ count => count

/-- What comes of `count` numbers of a range, from one on, after what came before, last one first. -/
def collectNumbers {m : Type → Type} [Monad m] (f : Value → m (List Value)) (start step : Int) :
    Nat → Nat → List (List Value) → m (List Value)
  | 0, _, before => pure before.reverse.flatten
  | count + 1, i, before => do
    let made ← f (int (rangeNumber start step i))
    collectNumbers f start step count (i + 1) (made :: before)

/-- All that comes of the elements, in order. -/
def collect {m : Type → Type} [Monad m] (f : Value → m (List Value)) : Elements → m (List Value)
  | items vs => List.flatten <$> vs.mapM f
  | numbers start step count => collectNumbers f start step count 0 []

end Elements

/-- Whether a value counts as true. -/
def truth : Value → Bool
  | none => false
  | bool b => b
  | int n => n ≠ 0
  | float x => !(x == 0)
  | text bs | bytes bs => !bs.isEmpty
  | list xs | tuple xs | dict xs _ => !xs.isEmpty
  | range a b c => 0 < rangeLength a b c
  | elems _ | builtin _ | helper _ | method .. | function .. => true

/-! ## Values as integers -/

/-- A value as an integer; the fraction of a number is left out. -/
def toInteger : Value → Except IntegerFault Int
  | int n => .ok n
  | float x =>
    if x.isInf then .error .infinite
    else if x.isNaN then .error .undefined
    else
      let size := (Text.Dyadic.ofFloat x).integerPart
      .ok (if x < 0 then -size else size)
  | v => .error (.type v.type)

/-- An integer of 32 bits. -/
def toSmall : Value → Except SmallFault Int
  | int n => if -2147483648 ≤ n ∧ n < 2147483648 then .ok n else .error (.range n)
  | v => .error (.type v.type)

/-! ## Values as text -/

/-- The digits of a number with a fraction, in the fewest digits that tell it from others.  From a million on,
and below a ten-thousandth, it has an exponent. -/
def generalDigits (mark : Char) (x : Float) : List Char :=
  let digits := (Text.Dyadic.ofFloat x).shortest
  if digits.digits = 0 then ['0', '.', '0']
  else if digits.leading < -4 ∨ 6 ≤ digits.leading then digits.scientific mark 0
  else
    let all := digits.positional
    if all.contains '.' then all else all ++ ['.', '0']

/-- A number with a fraction, given how to write a size. -/
def signedFloat (digits : Float → List Char) (x : Float) : String :=
  if x.isNaN then "nan"
  else if x.isInf then if x < 0 then "-inf" else "+inf"
  else
    let negative := 9223372036854775808 ≤ x.toBits.toNat
    String.ofList (if negative then '-' :: digits x else digits x)

/-- The entries of a dictionary. -/
def entryTexts : List String → List String → List String
  | k :: ks, v :: vs => (k ++ ": " ++ v) :: entryTexts ks vs
  | _, _ => []

mutual

/-- A value as it would be written in a script. -/
def written : Value → String
  | none => "None"
  | bool b => if b then "True" else "False"
  | int n => toString n
  | float x => signedFloat (generalDigits 'e') x
  | text bs => Text.quotedBytes bs
  | bytes bs => "b" ++ Text.quotedBytes bs
  | list xs => "[" ++ ", ".intercalate (allWritten xs) ++ "]"
  | tuple [x] => "(" ++ x.written ++ ",)"
  | tuple xs => "(" ++ ", ".intercalate (allWritten xs) ++ ")"
  | dict ks vs => "\x7b" ++ ", ".intercalate (entryTexts (allWritten ks) (allWritten vs)) ++ "\x7d"
  | range a b c =>
    if c ≠ 1 then s!"range({a}, {b}, {c})"
    else if a ≠ 0 then s!"range({a}, {b})"
    else s!"range({b})"
  | elems bs => Text.quotedBytes bs ++ ".elems()"
  | builtin b => "<built-in function " ++ b.name ++ ">"
  | helper name => "<built-in function " ++ name ++ ">"
  | method m _ => "<built-in method " ++ m.name ++ " of string value>"
  | function _ name => "<function " ++ name ++ ">"

/-- Several values as they would be written. -/
def allWritten : List Value → List String
  | [] => []
  | x :: xs => x.written :: allWritten xs

end

/-- A value as a message shows it: a text is itself, and anything else is as it would be written. -/
def shown : Value → List UInt8
  | text bs => bs
  | v => Text.encode v.written

/-- A value as text.  Bytes that are no characters are replaced by a mark. -/
def toText : Value → List UInt8
  | bytes bs => Text.encode (readable bs)
  | v => v.shown

/-! ## Keys -/

mutual

/-- The type of what makes a value unfit as a key, if anything does. -/
def unhashable? : Value → Option String
  | list _ => some "list"
  | dict .. => some "dict"
  | range .. => some "range"
  | elems _ => some "string.elems"
  | tuple xs => anyUnhashable? xs
  | _ => Option.none

/-- The type of what makes the first of several values unfit. -/
def anyUnhashable? : List Value → Option String
  | [] => Option.none
  | x :: xs => x.unhashable? <|> anyUnhashable? xs

end

end Value

end TapeMachine.Script
