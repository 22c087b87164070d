import TapeMachine.Settings
import TapeMachine.Text.Double
import TapeMachine.Word

/-!
# Scalars of YAML

A scalar is a text, either plain or in quotes.  What it stands for depends on the field it is for:

* an integer field takes plain integers, with underscores dropped and with the bases that a literal can
  name, and the integer part of plain decimal numbers;
* a field that is true or false takes the words `true` and `false` in plain, and a few words that mean the same;
* a text field takes any scalar as it is.

An empty plain scalar and the words for null stand for nothing.
-/

set_option autoImplicit false
namespace TapeMachine.Yaml

/-- A scalar. -/
structure Scalar where
  quoted : Bool
  text : String
  deriving DecidableEq, Repr

namespace Scalar

/-- The empty plain scalar. -/
def empty : Scalar :=
  ⟨false, ""⟩

/-- Whether a scalar stands for nothing. -/
def isNull (s : Scalar) : Bool :=
  !s.quoted && ["", "~", "null", "Null", "NULL"].contains s.text

/-- The words that mean true, beside `true` itself. -/
def trueWords : List String :=
  ["y", "Y", "yes", "Yes", "YES", "on", "On", "ON"]

/-- The words that mean false, beside `false` itself. -/
def falseWords : List String :=
  ["n", "N", "no", "No", "NO", "off", "Off", "OFF"]

/-- The truth value of a scalar. -/
def bool? (s : Scalar) : Option Bool :=
  if !s.quoted && ["true", "True", "TRUE"].contains s.text then some true
  else if !s.quoted && ["false", "False", "FALSE"].contains s.text then some false
  else if trueWords.contains s.text then some true
  else if falseWords.contains s.text then some false
  else none

/-- The smallest word. -/
def leastWord : Int :=
  -9223372036854775808

/-- An integer part as a word.  One that is too small becomes the smallest word, and so does the first one
that is too large. -/
def wordOfPart (n : Int) : Option Int :=
  if IsWord n then some n
  else if 9223372036854775808 < n then none
  else some leastWord

/-- The integer part of a decimal number, as a word. -/
def decimalPart? (cs : List Char) : Option Int := do
  let x ← (← Text.decimal? cs).nearest?
  let size := (Text.Dyadic.ofFloat x).integerPart
  wordOfPart (if x < 0 then -size else size)

/-- Whether every underscore stands between digits. -/
def underscoresBetween : (afterDigit : Bool) → List Char → Bool
  | _, [] => true
  | afterDigit, '_' :: cs => afterDigit && cs.head?.any Char.isDigit && underscoresBetween false cs
  | _, c :: cs => underscoresBetween c.isDigit cs

/-- Whether digits are those of a number that is a word only without a sign. -/
def fitsUnsigned (cs : List Char) : Bool :=
  match cs with
  | '-' :: _ | '+' :: _ => false
  | cs => (Text.literalMagnitude cs).toOption.isSome

/-- The integer behind a mark of its base.  It may have its sign there. -/
def markedInt? : List Char → Option Int
  | '0' :: 'b' :: cs => (Text.signedInt (Text.magnitudeIn 2) cs).toOption
  | '0' :: 'o' :: cs => (Text.signedInt (Text.magnitudeIn 8) cs).toOption
  | _ => none

/-- The integer of digits without underscores. -/
def digitsInt? (cs : List Char) : Option Int :=
  match Text.literalInt (String.ofList cs) with
  | .ok n => some n
  | .error _ =>
    if fitsUnsigned cs then none else decimalPart? cs <|> markedInt? cs

/-- The integer of a plain text. -/
def integerOf? (text : String) : Option Int :=
  match text.toList with
  | [] => none
  | c :: cs =>
    let digits := (c :: cs).filter (· ≠ '_')
    if c = '.' then if underscoresBetween false (c :: cs) then decimalPart? digits else none
    else if text ∈ ["-.inf", "-.Inf", "-.INF"] then some leastWord
    else if c.isDigit ∨ c = '-' ∨ c = '+' then digitsInt? digits
    else none

/-- The integer of a scalar. -/
def int? (s : Scalar) : Option Int :=
  if s.quoted then none else integerOf? s.text

end Scalar

end TapeMachine.Yaml
