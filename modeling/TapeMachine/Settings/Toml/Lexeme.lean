import TapeMachine.Text.Decimal
import TapeMachine.Text.Escape
import TapeMachine.Text.Lines

/-!
# Lexemes of TOML

Texts stand in double quotes, where a backslash begins an escape, or in single ones, where there are no escapes.
Three quotes begin a text that may go over several lines: a line end right behind them does not count, and a
backslash at the end of a line takes the line end and all blanks after it away.  Such a text may end in one or
two quotes of its own.

Numbers are integers in four bases, or decimal numbers with a fraction or an exponent.  Underscores may stand
between digits, and no zeros in front of others.
-/

set_option autoImplicit false
namespace TapeMachine.Toml

open Text (isBlank)

/-- Whether a character is part of a line end. -/
def isLineEnd (c : Char) : Bool :=
  c = '\n' || c = '\r'

/-! ## Texts -/

/-- The character an escape letter stands for. -/
def escaped? (c : Char) : Option Char :=
  match c with
  | 'b' => some '\x08'
  | 't' => some '\t'
  | 'n' => some '\n'
  | 'f' => some '\x0c'
  | 'r' => some '\r'
  | '"' => some '"'
  | '\\' => some '\\'
  | _ => none

/-- How many digits follow an escape letter that names a character by its number. -/
def escapeDigits? (c : Char) : Option Nat :=
  match c with
  | 'u' => some 4
  | 'U' => some 8
  | _ => none

/-- The character of an escape, from behind its backslash on, and the rest. -/
def escape? : List Char → Option (Char × List Char)
  | [] => none
  | c :: rest =>
    match escapeDigits? c with
    | some width =>
      let digits := rest.take width
      if digits.length < width then none
      else (Text.scalarChar? digits).map fun c => (c, rest.drop width)
    | none => (escaped? c).map fun c => (c, rest)

/-- Reads a text with escapes up to its closing quote, after the text before, which is given backwards. -/
def basicTextFor : Nat → List Char → List Char → Option (List Char × List Char)
  | 0, _, _ => none
  | _, _, [] => none
  | n + 1, before, c :: rest =>
    if c = '"' then some (before.reverse, rest)
    else if isLineEnd c then none
    else if c = '\\' then
      match escape? rest with
      | some (c, rest) => basicTextFor n (c :: before) rest
      | none => none
    else basicTextFor n (c :: before) rest

/-- Reads a text without escapes up to its closing quote. -/
def literalText? (cs : List Char) : Option (List Char × List Char) :=
  let text := cs.takeWhile fun c => c ≠ '\'' && !isLineEnd c
  match cs.drop text.length with
  | '\'' :: rest => some (text, rest)
  | _ => none

/-- Whether three quotes, with another one behind them, are too many after what was read before, which is given
backwards.  An escaped quote does not count. -/
def tooManyQuotes (quote : Char) (before : List Char) : Bool :=
  before.take 2 = [quote, quote] && !(quote = '"' && (before.drop 2).head? = some '\\')

/-- How many characters an escape has in a long text, with its backslash, from behind that on.  A backslash
may stand before a blank or a line end too. -/
def escapeLength? : List Char → Option Nat
  | [] => none
  | c :: rest =>
    if isLineEnd c || isBlank c then some 2
    else
      match escape? (c :: rest) with
      | some (_, after) => some (2 + (rest.length - after.length))
      | none => none

/-- Reads a long text as it is written, up to its closing quotes, after what was read before, which is given
backwards. -/
def longTextFor (quote : Char) : Nat → List Char → List Char → Option (List Char × List Char)
  | 0, _, _ => none
  | _, _, [] => none
  | n + 1, before, c :: rest =>
    if c = quote ∧ rest.take 2 = [quote, quote] then
      if (rest.drop 2).head? ≠ some quote then some (before.reverse, rest.drop 2)
      else if tooManyQuotes quote before then none
      else longTextFor quote n (c :: before) rest
    else if c = '\\' ∧ quote = '"' then
      match escapeLength? rest with
      | some length =>
        longTextFor quote n (((c :: rest).take length).reverse ++ before) ((c :: rest).drop length)
      | none => none
    else longTextFor quote n (c :: before) rest

/-- A long text without a line end at its front. -/
def withoutFirstLineEnd : List Char → List Char
  | '\n' :: cs => cs
  | '\r' :: '\n' :: cs => cs
  | cs => cs

/-- A long text as it is meant, after the text before, which is given backwards. -/
def resolvedFor : Nat → List Char → List Char → Option (List Char)
  | 0, _, _ => none
  | _, before, [] => some before.reverse
  | n + 1, before, c :: rest =>
    if c = '\\' then
      let space := rest.takeWhile fun c => isBlank c || isLineEnd c
      if space.contains '\n' then resolvedFor n before (rest.drop space.length)
      else
        match escape? rest with
        | some (c, rest) => resolvedFor n (c :: before) rest
        | none => none
    else resolvedFor n (c :: before) rest

/-- Reads a text after its first quote. -/
def text? (quote : Char) (cs : List Char) : Option (List Char × List Char) :=
  if cs.take 2 = [quote, quote] then do
    let (raw, rest) ← longTextFor quote (cs.length + 1) [] (cs.drop 2)
    let raw := withoutFirstLineEnd raw
    let text ← if quote = '"' then resolvedFor (raw.length + 1) [] raw else some raw
    return (text, rest)
  else if quote = '"' then basicTextFor (cs.length + 1) [] cs
  else literalText? cs

/-! ## Keys -/

def isKeyChar (c : Char) : Bool :=
  c.isAlphanum || c = '_' || c = '-'

/-- Reads a part of a key: a word, or a text on one line. -/
def keyPart? : List Char → Option (String × List Char)
  | '"' :: rest =>
    (basicTextFor (rest.length + 1) [] rest).map fun (text, rest) => (String.ofList text, rest)
  | '\'' :: rest => (literalText? rest).map fun (text, rest) => (String.ofList text, rest)
  | cs =>
    match cs.takeWhile isKeyChar with
    | [] => none
    | word => some (String.ofList word, cs.dropWhile isKeyChar)

/-- Reads a key, which may have several parts with points between them. -/
def keyFor : Nat → List Char → Option (List String × List Char)
  | 0, _ => none
  | n + 1, cs => do
    let (part, cs) ← keyPart? (Text.skipBlanks cs)
    match Text.skipBlanks cs with
    | '.' :: rest =>
      let (parts, rest) ← keyFor n rest
      return (part :: parts, rest)
    | rest => return ([part], rest)

/-- Reads a key. -/
def key? (cs : List Char) : Option (List String × List Char) :=
  keyFor (cs.length + 1) cs

/-! ## Numbers -/

/-- Whether every underscore stands behind a digit, and a digit is last, given whether there is a digit before. -/
def underscoresBehindDigits : (afterDigit : Bool) → List Char → Bool
  | afterDigit, [] => afterDigit
  | afterDigit, c :: cs =>
    (c ≠ '_' || afterDigit) && underscoresBehindDigits (Text.isDigitIn 16 c) cs

/-- Whether a zero stands in front of other digits. -/
def hasLeadingZero : List Char → Bool
  | '0' :: c :: _ => !(c = 'b' || c = 'o' || c = 'x')
  | '+' :: '0' :: _ :: _ | '-' :: '0' :: _ :: _ => true
  | _ => false

/-- The integer of its digits. -/
def integer? (cs : List Char) : Option Int :=
  if underscoresBehindDigits false cs && !hasLeadingZero cs then (Text.literalInt (String.ofList cs)).toOption
  else none

/-- The parts of a number between its point and its exponent. -/
def numberParts (cs : List Char) : List (List Char) :=
  (cs.splitOnP fun c => c = '.' || c = 'e' || c = 'E').filter fun part => !part.isEmpty

/-- Whether a digit follows every point. -/
def pointsBeforeDigits : List Char → Bool
  | [] => true
  | '.' :: cs => cs.head?.any Char.isDigit && pointsBeforeDigits cs
  | _ :: cs => pointsBeforeDigits cs

/-- Whether some characters are a number with a fraction or an exponent, and not too large. -/
def isFraction (cs : List Char) : Bool :=
  (numberParts cs).all (underscoresBehindDigits false) && !hasLeadingZero ((numberParts cs).headD []) &&
    pointsBeforeDigits cs && ((Text.decimal? (cs.filter (· ≠ '_'))).bind Text.Decimal.nearest?).isSome

/-- A number that was read.  Of one with a fraction nothing is kept. -/
inductive Number where
  | integer (n : Int)
  | fraction

/-- Whether a character can be part of a number with a fraction. -/
def isFractionChar (c : Char) : Bool :=
  c.isDigit || ['_', '.', '-', '+', 'e', 'E'].contains c

/-- Reads a decimal number, whose sign is given. -/
def decimalNumber? (sign cs : List Char) : Option (Number × List Char) :=
  let whole := cs.takeWhile fun c => c.isDigit || c = '_'
  let rest := cs.drop whole.length
  if !cs.head?.any Char.isDigit then none
  else if ['.', 'e', 'E'].contains (rest.headD '\x00') then
    let text := whole ++ rest.takeWhile isFractionChar
    if isFraction (sign ++ text) then some (.fraction, cs.drop text.length) else none
  else (integer? (sign ++ whole)).map fun n => (.integer n, rest)

/-- Reads an integer in a base, with its mark, which a digit has to follow. -/
def basedNumber? (base : Nat) (cs : List Char) : Option (Number × List Char) :=
  let digits := (cs.drop 2).takeWhile fun c => Text.isDigitIn base c || c = '_'
  if digits.head?.any (Text.isDigitIn base) then
    (integer? (cs.take 2 ++ digits)).map fun n => (.integer n, cs.drop (2 + digits.length))
  else none

/-- Reads what may follow a sign: a decimal number, or the words for infinity and for no number. -/
def signedNumber? (sign cs : List Char) : Option (Number × List Char) :=
  if cs.take 3 = ['i', 'n', 'f'] ∨ cs.take 3 = ['n', 'a', 'n'] then some (.fraction, cs.drop 3)
  else decimalNumber? sign cs

/-- Reads a number.  Only decimal numbers may have a sign. -/
def number? (cs : List Char) : Option (Number × List Char) :=
  match cs with
  | '+' :: rest => signedNumber? ['+'] rest
  | '-' :: rest => signedNumber? ['-'] rest
  | '0' :: 'x' :: _ => basedNumber? 16 cs
  | '0' :: 'o' :: _ => basedNumber? 8 cs
  | '0' :: 'b' :: _ => basedNumber? 2 cs
  | cs => signedNumber? [] cs

end TapeMachine.Toml
