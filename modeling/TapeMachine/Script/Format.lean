import TapeMachine.Script.Compare

/-!
# Formats

A format is a text in which conversions stand for arguments.  A conversion is a percent sign and a letter, and
may name a key of a dictionary between them; otherwise it takes the next argument.  All arguments have to be
used, unless they come from a dictionary.
-/

set_option autoImplicit false
namespace TapeMachine.Script

/-- Digits of a number in a base, with a sign. -/
def digitsIn (base : Nat) (n : Int) : String :=
  let digits := String.ofList (Nat.toDigits base n.natAbs)
  if n < 0 then "-" ++ digits else digits

/-- The character with a number, or the sole character of a text. -/
def formattedChar (v : Value) : Except FormatFault (List UInt8) :=
  let encoded (c : Char) : List UInt8 := Text.encode c.toString
  match v with
  | .int n =>
    if 0 ≤ n ∧ n ≤ 0x10ffff then
      .ok (encoded (if n.toNat.isValidChar then Char.ofNat n.toNat else '\ufffd'))
    else .error (.codePoint n)
  | .text bs =>
    match Text.decode bs with
    | [c] => .ok (encoded (c.getD '\ufffd'))
    | _ => .error .singleCharacter
  | v => .error (.character v.type)

/-- A number with a fraction in the notation of a letter: six digits behind the point, or as many as it needs. -/
def formattedFloat (letter : Char) (x : Float) : String :=
  let size := Text.Dyadic.ofFloat x
  if letter = 'e' ∨ letter = 'E' then
    Value.signedFloat (fun _ => (size.significant 7).scientific letter 6) x
  else if letter = 'f' then Value.signedFloat (fun _ => (size.places 6).positional) x
  else if letter = 'g' then Value.signedFloat (Value.generalDigits 'e') x
  else if letter = 'G' then Value.signedFloat (Value.generalDigits 'E') x
  else if x.isNaN ∨ x.isInf then Value.signedFloat (fun _ => []) x
  else "%" ++ letter.toString

/-- What a conversion letter of a format makes of a value. -/
def conversion (letter : Char) (v : Value) : Except FormatFault (List UInt8) :=
  let integer (f : Int → String) : Except FormatFault (List UInt8) :=
    match v.toInteger with
    | .ok n => .ok (Text.encode (f n))
    | .error e => .error (.integer letter e)
  match letter with
  | 's' => .ok v.shown
  | 'r' => .ok (Text.encode v.written)
  | 'd' | 'i' => integer toString
  | 'o' => integer (digitsIn 8)
  | 'x' => integer (digitsIn 16)
  | 'X' => integer fun n => (digitsIn 16 n).map Char.toUpper
  | 'e' | 'f' | 'g' | 'E' | 'F' | 'G' =>
    match v with
    | .int n => .ok (Text.encode (formattedFloat letter (Float.ofInt n)))
    | .float x => .ok (Text.encode (formattedFloat letter x))
    | v => .error (.float letter v.type)
  | 'c' => formattedChar v
  | '%' => .ok [0x25]
  | letter => .error (.letter letter)

/-- Where the conversions of a format take their values from. -/
structure FormatArguments where
  keys : List Value := []
  values : List Value := []
  isDict : Bool := false
  /-- The values that are taken in order. -/
  inOrder : List Value := []

/-- The arguments that a value stands for. -/
def FormatArguments.of : Value → FormatArguments
  | .tuple vs => { inOrder := vs }
  | .dict ks vs => { keys := ks, values := vs, isDict := true, inOrder := [.dict ks vs] }
  | v => { inOrder := [v] }

/-- The argument of a key. -/
def FormatArguments.named (as : FormatArguments) (key : List UInt8) : Except FormatFault Value :=
  if !as.isDict then .error .noMapping
  else
    match valueAt equal (.text key) as.keys as.values with
    | .ok (some v) => .ok v
    | _ => .error (.noKey key)

/-- The argument of a conversion, from behind its percent sign on, with the arguments and the format left. -/
def FormatArguments.next (as : FormatArguments) (fmt : List UInt8) :
    Except FormatFault (Value × FormatArguments × List UInt8) :=
  match fmt with
  | 0x28 :: rest =>
    let key := rest.takeWhile (· ≠ 0x29)
    match rest.drop key.length with
    | [] => .error .incompleteKey
    | _ :: rest => (as.named key).map fun v => (v, as, rest)
  | rest =>
    match as.inOrder with
    | [] => .error .tooFew
    | v :: inOrder => .ok (v, { as with inOrder }, rest)

/-- Fills the arguments into a format, for at most a number of steps.  The bytes before are given, last one
first. -/
def filledFor : Nat → List UInt8 → FormatArguments → List UInt8 → Except FormatFault (List UInt8)
  | 0, _, _, _ => .error .incomplete
  | _, before, as, [] =>
    if as.inOrder.isEmpty || as.isDict then .ok before.reverse else .error .tooMany
  | n + 1, before, as, b :: rest =>
    if b ≠ 0x25 then filledFor n (b :: before) as rest
    else if rest.head? = some 0x25 then filledFor n (0x25 :: before) as rest.tail
    else
      match as.next rest with
      | .error e => .error e
      | .ok (_, _, []) => .error .incomplete
      | .ok (v, as, letter :: rest) =>
        match conversion (Char.ofNat letter.toNat) v with
        | .ok made => filledFor n (made.reverse ++ before) as rest
        | .error e => .error e

/-- Fills a value, or the values of a tuple or a dictionary, into a format. -/
def filled (fmt : List UInt8) (v : Value) : Except Fault (List UInt8) :=
  (filledFor (fmt.length + 1) [] (FormatArguments.of v) fmt).mapError .format

end TapeMachine.Script
