import TapeMachine.Script.Operation

/-!
# The functions every script can use

A function checks the number of its arguments, then their names, and then one argument after the other.  What it
finds first is what is told.
-/

set_option autoImplicit false
namespace TapeMachine.Script

/-! ## Arguments -/

/-- Makes sure that no argument has a name, and that there are as many as a function takes. -/
def checkCount (f : String) (least most : Nat) (args : List Value) (names : List String) :
    Except Fault Unit :=
  if !names.isEmpty then .error (.namedArguments f)
  else if args.length < least ∨ most < args.length then
    .error (.argumentCount f args.length least most)
  else .ok ()

/-- The argument of a function that takes a single one. -/
def soleArgument (f : String) (args : List Value) (names : List String) : Except Fault Value :=
  match checkCount f 1 1 args names with
  | .ok () => .ok (args.headD .none)
  | .error e => .error e

/-- An argument that has to be a word. -/
def wordArgument (f : String) (parameter : Nat) (v : Value) : Except Fault Int :=
  match v with
  | .int n => if IsWord n then .ok n else .error (.argumentRange f parameter n)
  | v => .error (.argumentType f parameter v.type "int")

/-- Binds named arguments to the parameters of a function.  Each is checked before the next one is bound. -/
def namedArguments (f : String) (params candidates : List String)
    (check : String → Value → Except Fault Unit) :
    List (String × Value) → List (String × Value) → Except Fault (List (String × Value))
  | bound, [] => .ok bound
  | bound, (x, v) :: rest => do
    if !params.contains x then throw (.unknownName f x (Text.nearest? x candidates))
    if (bound.lookup x).isSome then throw (.repeatedName f x)
    check x v
    namedArguments f params candidates check ((x, v) :: bound) rest

/-- Splits arguments into those without a name and those with one. -/
def splitArguments (args : List Value) (names : List String) : List Value × List (String × Value) :=
  let count := args.length - names.length
  (args.take count, names.zip (args.drop count))

/-! ## Numbers and texts -/

/-- The arguments of a range, each with its number. -/
def rangeWords (f : String) : (parameter : Nat) → List Value → Except Fault (List Int)
  | _, [] => .ok []
  | k, v :: vs => do
    let n ← wordArgument f k v
    let ns ← rangeWords f (k + 1) vs
    return n :: ns

/-- The numbers from a start, which is zero if it is not given, up to a stop, in steps. -/
def rangeOf (f : String) (args : List Value) (names : List String) : Except Fault Value := do
  checkCount f 1 3 args names
  match ← rangeWords f 1 args with
  | [stop] => return .range 0 stop 1
  | [start, stop] => return .range start stop 1
  | [start, stop, step] => if step = 0 then throw .zeroStep else return .range start stop step
  | _ => return .none

/-- The number of elements of a value. -/
def lengthOf (f : String) (args : List Value) (names : List String) : Except Fault Value := do
  let v ← soleArgument f args names
  match v.length? with
  | some n => if n < 0 then throw (.noLength v.type) else return .int n
  | none => throw (.noLength v.type)

/-- The sole character of a text, or the sole byte, as a number. -/
def codeOf (f : String) (args : List Value) (names : List String) : Except Fault Value :=
  if !names.isEmpty then .error (.namesRefused f)
  else
    match args with
    | [.text bs] =>
      match Text.decode bs with
      | [c] => .ok (.int (c.getD '\ufffd').toNat)
      | cs => .error (.codePoints cs.length)
    | [.bytes [b]] => .ok (.int b.toNat)
    | [.bytes bs] => .error (.byteCount bs.length)
    | [v] => .error (.noCharacter v.type)
    | args => .error (.argumentCount f args.length 1 1)

/-- The base that a text with a mark names. -/
def markedBase? : List Char → Option Nat
  | '0' :: c :: _ :: _ =>
    if c = 'o' ∨ c = 'O' then some 8
    else if c = 'x' ∨ c = 'X' then some 16
    else if c = 'b' ∨ c = 'B' then some 2
    else none
  | _ => none

/-- Reads digits in a base. -/
def digitsNumber? (base : Nat) (cs : List Char) : Option Nat :=
  if !cs.isEmpty && cs.all (Text.isDigitIn base) then some (Text.numberIn base cs) else none

/-- Reads a number without a sign.  The mark of a base is skipped if it is that of the base.  If the base is
zero, the mark tells it; without a mark it is ten, and no zero may stand in front of other digits. -/
def unsignedNumber? (base : Nat) (cs : List Char) : Option Nat :=
  match markedBase? cs with
  | some marked =>
    if base = 0 ∨ marked = base then digitsNumber? marked (cs.drop 2) else digitsNumber? base cs
  | none =>
    if base ≠ 0 then digitsNumber? base cs
    else if cs.head? = some '0' then if cs.all (· = '0') then some 0 else none
    else digitsNumber? 10 cs

/-- Reads a number in a base, with an optional sign. -/
def signedNumber? (base : Nat) (cs : List Char) : Option Int :=
  let (negative, digits) := Text.splitSign cs
  (unsignedNumber? base digits).map fun n => if negative then -(n : Int) else n

/-- The base that a value names, if it does. -/
def baseOf : Option Value → Except ConversionFault Nat
  | none => .ok 10
  | some v =>
    match v.toSmall with
    | .error _ => .error (.baseType v.type)
    | .ok b => if b ≠ 0 ∧ (b < 2 ∨ 36 < b) then .error .baseRange else .ok b.toNat

/-- A value as an integer.  Texts are read in a base. -/
def integerOf (v : Value) (base : Option Value) : Except ConversionFault Int :=
  match v with
  | .text bs =>
    match baseOf base with
    | .error e => .error e
    | .ok b =>
      match signedNumber? b (readable bs).toList with
      | some n => .ok n
      | none => .error (.literal b bs)
  | v =>
    if base.isSome then .error .baseUnused
    else
      match v with
      | .bool b => .ok b.toNat
      | v => v.toInteger.mapError .value

/-- Calls the function that makes integers. -/
def intOf (f : String) (args : List Value) (names : List String) : Except Fault Value := do
  let (positional, named) := splitArguments args names
  if 2 < positional.length then throw (.argumentCount f positional.length 1 2)
  let bound ← namedArguments f ["x", "base"] ["x"] (fun _ _ => .ok ()) (["x", "base"].zip positional) named
  match bound.lookup "x" with
  | none => throw (.missingName f "x")
  | some v =>
    match integerOf v (bound.lookup "base") with
    | .ok n => return .int n
    | .error e => throw (.conversion e)

/-- Calls the function that makes texts. -/
def textOf (f : String) (args : List Value) (names : List String) : Except Fault Value :=
  if !names.isEmpty then .error (.namesRefused f)
  else
    match args with
    | [v] => .ok (.text v.toText)
    | args => .error (.notSole f args.length)

/-- Makes sure that what stands between reasons is a text. -/
def checkSeparator (f name : String) (v : Value) : Except Fault Unit :=
  match v with
  | .text _ => .ok ()
  | v => .error (.namedType f name v.type "string")

/-- The fault of a script that gives up, with its reasons.  What stands between them may be given by name. -/
def failureOf (f : String) (args : List Value) (names : List String) : Fault :=
  let (reasons, named) := splitArguments args names
  match namedArguments f ["sep"] ["sep"] (checkSeparator f) [] named with
  | .error e => e
  | .ok bound =>
    let separator := (bound.lookup "sep").elim [0x20] Value.shown
    .failed (separator.intercalate (reasons.map Value.shown))

/-! ## Calls -/

/-- Calls a function that every script can use. -/
def Builtin.call (b : Builtin) (args : List Value) (names : List String) : Except Fault Value :=
  match b with
  | .range => rangeOf b.name args names
  | .len => lengthOf b.name args names
  | .ord => codeOf b.name args names
  | .int => intOf b.name args names
  | .str => textOf b.name args names
  | .fail => .error (failureOf b.name args names)

/-- The texts among some values, joined by a separator.  What was joined before is given backwards. -/
def joinedTexts (separator : List UInt8) : List UInt8 → List Value → Except Fault (List UInt8)
  | before, [] => .ok before.reverse
  | before, [.text bs] => .ok (before.reverse ++ bs)
  | before, .text bs :: rest => joinedTexts separator (separator.reverse ++ (bs.reverse ++ before)) rest
  | _, v :: _ => .error (.notJoinable v.type)

/-- Joins the elements of a value, which have to be texts.  Of a range the first number is refused already. -/
def joined (separator : List UInt8) (v : Value) : Except Fault Value :=
  match v.elements? with
  | some (.items vs) => (joinedTexts separator [] vs).map .text
  | some numbers => (joinedTexts separator [] (numbers.take 1)).map .text
  | none => .error (.argumentType Method.join.name 1 v.type "iterable")

/-- Calls a function that belongs to a text. -/
def Method.call (m : Method) (receiver : List UInt8) (args : List Value) (names : List String) :
    Except Fault Value :=
  match m with
  | .elems =>
    match checkCount m.name 0 0 args names with
    | .ok () => .ok (.elems receiver)
    | .error e => .error e
  | .join => do joined receiver (← soleArgument m.name args names)

end TapeMachine.Script
