import TapeMachine.Text.Decimal
import TapeMachine.Text.Letter
import TapeMachine.Text.Lines
import TapeMachine.Text.Utf8

/-!
# Tokens of a script

A script is read as a list of tokens.  The ends of lines count, and so does the indentation of a line:
a line that is indented further than the one before opens a block, and one that is indented less closes
the blocks it leaves.  Inside brackets neither counts.

Scripts are bytes that are read as characters; a byte that is part of no character is read as U+FFFD, which
can stand in a text or a comment only.  Outside of texts the character with number zero ends the script.
-/

set_option autoImplicit false
namespace TapeMachine.Script

/-- A token. -/
inductive Token where
  | name (s : String)
  | keyword (s : String)
  | int (n : Nat)
  | float (x : Float)
  | text (bytes : List UInt8)
  | bytes (bytes : List UInt8)
  | symbol (s : String)
  | newline
  | indent
  | dedent
  deriving Repr, BEq

namespace Token

/-- The words that cannot be names. -/
def keywords : List String :=
  ["and", "as", "async", "await", "break", "class", "continue", "def", "del", "elif", "else", "except",
    "finally", "for", "from", "global", "if", "import", "in", "is", "lambda", "load", "nonlocal", "not",
    "or", "pass", "raise", "return", "try", "while", "with", "yield"]

/-- The symbols, longer spellings before shorter ones. -/
def symbols : List String :=
  ["<<=", ">>=", "//=", "**", "<<", ">>", "//", "==", "!=", "<=", ">=", "+=", "-=", "*=", "/=", "%=",
    "&=", "|=", "^=", "+", "-", "*", "/", "%", "=", "<", ">", "&", "|", "^", "~", ".", ",", ";", ":",
    "(", ")", "[", "]", "\x7b", "\x7d"]

def isNameStart (c : Char) : Bool :=
  c = '_' || Text.isLetter c

def isNameChar (c : Char) : Bool :=
  isNameStart c || c.isDigit

/-! ## Numbers -/

/-- The number from which on an integer does not fit a word, `2 ^ 63`. -/
def wordEnd : Nat :=
  9223372036854775808

/-- An integer written in a base, after its mark. -/
def basedInt? (base : Nat) (cs : List Char) : Option (Token × List Char) :=
  match cs.takeWhile (Text.isDigitIn base) with
  | [] => none
  | digits => some (int (Text.numberIn base digits), cs.dropWhile (Text.isDigitIn base))

/-- An integer written in a base, which has to fit a word. -/
def basedWord? (base : Nat) (cs : List Char) : Option (Token × List Char) :=
  match basedInt? base cs with
  | some (int n, rest) => if n < wordEnd then some (int n, rest) else none
  | _ => none

/-- The length of an exponent with its mark.  A mark alone counts too. -/
def exponentLength : List Char → Nat
  | e :: rest =>
    if e = 'e' ∨ e = 'E' then
      match rest with
      | '+' :: rest | '-' :: rest => 2 + (rest.takeWhile Char.isDigit).length
      | rest => 1 + (rest.takeWhile Char.isDigit).length
    else 0
  | [] => 0

/-- The length of a fraction with its point. -/
def fractionLength : List Char → Nat
  | '.' :: rest => 1 + (rest.takeWhile Char.isDigit).length
  | _ => 0

/-- A decimal number.  An integer has no leading zeros, unless all its digits are zero. -/
def decimal? (cs : List Char) : Option (Token × List Char) :=
  let digits := cs.takeWhile Char.isDigit
  let whole := digits.length
  let fraction := fractionLength (cs.drop whole)
  let exponent := exponentLength (cs.drop (whole + fraction))
  if 0 < fraction + exponent then do
    let length := whole + fraction + exponent
    let d ← Text.decimal? (cs.take length)
    return (float (← d.nearest?), cs.drop length)
  else if digits.head? = some '0' ∧ digits.any (· ≠ '0') then none
  else some (int (Text.numberIn 10 digits), cs.drop whole)

/-- The number at the front of a text.  Octal and binary integers have to fit a word. -/
def number? : List Char → Option (Token × List Char)
  | '0' :: 'x' :: rest | '0' :: 'X' :: rest => basedInt? 16 rest
  | '0' :: 'o' :: rest | '0' :: 'O' :: rest => basedWord? 8 rest
  | '0' :: 'b' :: rest | '0' :: 'B' :: rest => basedWord? 2 rest
  | cs => decimal? cs

/-! ## Texts -/

/-- How a text is written: whether backslashes stand for themselves, whether it goes over the ends of lines, and
whether it is meant as bytes. -/
structure Style where
  raw : Bool := false
  long : Bool := false
  binary : Bool := false

/-- The byte an escape letter stands for. -/
def escaped? (c : Char) : Option UInt8 :=
  match c with
  | 'a' => some 0x07
  | 'b' => some 0x08
  | 'f' => some 0x0c
  | 'n' => some 0x0a
  | 'r' => some 0x0d
  | 't' => some 0x09
  | 'v' => some 0x0b
  | '\\' => some 0x5c
  | '\'' => some 0x27
  | '"' => some 0x22
  | _ => none

/-- The byte with a number.  In a text it has to be a character by itself. -/
def numberedByte? (style : Style) (n : Nat) : Option (List UInt8) :=
  if n < (if style.binary then 0x100 else 0x80) then some [n.toUInt8] else none

/-- Some hexadecimal digits as a number, and what follows them. -/
def hexDigits? (count : Nat) (cs : List Char) : Option (Nat × List Char) :=
  let digits := cs.take count
  if digits.length = count ∧ digits.all (Text.isDigitIn 16) then
    some (Text.numberIn 16 digits, cs.drop count)
  else none

/-- The character with a number. -/
def numberedChar? (n : Nat) : Option (List UInt8) :=
  if n.isValidChar then some (String.utf8EncodeChar (Char.ofNat n)) else none

/-- What an escape stands for, from the character after its backslash on. -/
def escape? (style : Style) : List Char → Option (List UInt8 × List Char)
  | [] => none
  | '\n' :: rest => some ([], rest)
  | 'x' :: rest => do
    let (n, rest) ← hexDigits? 2 rest
    return (← numberedByte? style n, rest)
  | 'u' :: rest => do
    let (n, rest) ← hexDigits? 4 rest
    return (← numberedChar? n, rest)
  | 'U' :: rest => do
    let (n, rest) ← hexDigits? 8 rest
    return (← numberedChar? n, rest)
  | c :: rest =>
    if Text.isDigitIn 8 c then do
      let digits := ((c :: rest).take 3).takeWhile (Text.isDigitIn 8)
      return (← numberedByte? style (Text.numberIn 8 digits), (c :: rest).drop digits.length)
    else (escaped? c).map fun b => ([b], rest)

/-- Reads a text up to its closing quote, and gives the rest, for at most a number of characters.  The bytes
before are given, last one first. -/
def textFor (style : Style) (quote : Char) :
    Nat → List UInt8 → List Char → Option (List UInt8 × List Char)
  | 0, _, _ => none
  | _, _, [] => none
  | n + 1, before, c :: rest =>
    if c = quote ∧ !style.long then some (before.reverse, rest)
    else if c = quote ∧ rest.take 2 = [quote, quote] then some (before.reverse, rest.drop 2)
    else if c = '\n' ∧ !style.long then none
    else if c = '\\' ∧ style.raw then
      match rest with
      | d :: rest =>
        textFor style quote n ((String.utf8EncodeChar d).reverse ++ 0x5c :: before) rest
      | [] => none
    else if c = '\\' then
      match escape? style rest with
      | some (escaped, rest) => textFor style quote n (escaped.reverse ++ before) rest
      | none => none
    else textFor style quote n ((String.utf8EncodeChar c).reverse ++ before) rest

/-- Reads a text whose first quote was taken, of at most a number of characters. -/
def text? (bound : Nat) (style : Style) (quote : Char) (cs : List Char) : Option (Token × List Char) := do
  let long := cs.take 2 = [quote, quote]
  let cs := if long then cs.drop 2 else cs
  let (content, rest) ← textFor { style with long } quote bound [] cs
  return (if style.binary then bytes content else text content, rest)

/-! ## Single tokens -/

/-- The symbol at the front of a text. -/
def symbol? (cs : List Char) : Option (Token × List Char) :=
  (symbols.find? fun s => s.toList.isPrefixOf cs).map fun s => (symbol s, cs.drop s.length)

/-- The name or the word at the front of a text. -/
def word (cs : List Char) : Token × List Char :=
  let word := String.ofList (cs.takeWhile isNameChar)
  (if keywords.contains word then keyword word else name word, cs.dropWhile isNameChar)

def isQuote (c : Char) : Bool :=
  c = '"' || c = '\''

/-- The token at the front of a text that starts with none of blank, comment and line end, and that has less
characters than a bound. -/
def next? (bound : Nat) (cs : List Char) : Option (Token × List Char) :=
  match cs with
  | [] => none
  | c :: rest =>
    if isQuote c then text? bound {} c rest
    else if isNameStart c then
      match c, rest with
      | 'r', 'b' :: q :: rest =>
        if isQuote q then text? bound { raw := true, binary := true } q rest else some (word cs)
      | 'r', q :: rest => if isQuote q then text? bound { raw := true } q rest else some (word cs)
      | 'b', q :: rest => if isQuote q then text? bound { binary := true } q rest else some (word cs)
      | _, _ => some (word cs)
    else if c.isDigit || (c = '.' && rest.head?.any Char.isDigit) then number? cs
    else symbol? cs

/-! ## Lines and blocks -/

/-- The column after the blanks at the front of a line, and what follows them.  A space is one column wide.  A
tab that has `count` characters before it is as wide as is missing from `count` to a multiple of eight. -/
def indentation (column count : Nat) : List Char → Nat × List Char
  | ' ' :: rest => indentation (column + 1) (count + 1) rest
  | '\t' :: rest => indentation (column + 8 - count % 8) (count + 1) rest
  | rest => (column, rest)

/-- Opens or closes blocks so that the innermost one stands at a column.  The list holds the columns
of the open blocks, innermost first; the outermost is zero. -/
def reblock? (column : Nat) : List Nat → Option (List Token × List Nat)
  | [] => if column = 0 then some ([], []) else some ([indent], [column])
  | top :: outer =>
    if top < column then some ([indent], column :: top :: outer)
    else if top = column then some ([], top :: outer)
    else
      match outer with
      | [] => if column = 0 then some ([dedent], []) else none
      | next :: _ =>
        if next < column then none
        else (reblock? column outer).map fun (ts, blocks) => (dedent :: ts, blocks)

/-- How deep in brackets one is after a token.  A bracket that closes none is refused. -/
def depthAfter? (depth : Nat) : Token → Option Nat
  | symbol s =>
    if ["(", "[", "\x7b"].contains s then some (depth + 1)
    else if [")", "]", "\x7d"].contains s then if depth = 0 then none else some (depth - 1)
    else some depth
  | _ => some depth

/-- Where a reader stands in a script, and the tokens before, last one first. -/
structure Position where
  lineStart : Bool := true
  depth : Nat := 0
  blocks : List Nat := []
  before : List Token := []

/-- All tokens of a script that ends here. -/
def finish (p : Position) : List Token :=
  p.before.reverse ++ (if p.lineStart then [] else [newline]) ++ p.blocks.map fun _ => dedent

/-- Begins the content of a line that stands at a column. -/
def beginLine? (p : Position) (column : Nat) : Option Position :=
  (reblock? column p.blocks).map fun (tokens, blocks) =>
    { p with lineStart := false, blocks, before := tokens.reverse ++ p.before }

/-- Ends a line.  Inside brackets this does not count. -/
def endLine (p : Position) : Position :=
  if 0 < p.depth then p else { p with lineStart := true, before := newline :: p.before }

/-- The text after a comment, without the line end. -/
def skipComment (cs : List Char) : List Char :=
  cs.dropWhile fun c => c ≠ '\n' && c ≠ '\x00'

/-- Reads tokens for at most a number of steps.  Every step takes a character or begins a line. -/
def readFor : Nat → Position → List Char → Option (List Token)
  | 0, _, _ => none
  | _, p, [] => some (finish p)
  | n + 1, p, c :: rest =>
    if p.lineStart then
      let (column, line) := indentation 0 0 (c :: rest)
      match line with
      | [] => some (finish p)
      | '\x00' :: _ => some (finish p)
      | '\n' :: after => readFor n p after
      | '#' :: after => readFor n p (skipComment after)
      | line =>
        match beginLine? p column with
        | some p => readFor n p line
        | none => none
    else if c = '\x00' then some (finish p)
    else if c = ' ' ∨ c = '\t' then readFor n p rest
    else if c = '#' then readFor n p (skipComment rest)
    else if c = '\n' then readFor n (endLine p) rest
    else if c = '\\' ∧ rest.head? = some '\n' then readFor n p rest.tail
    else
      match next? (n + 1) (c :: rest) with
      | some (token, after) =>
        match depthAfter? p.depth token with
        | some depth => readFor n { p with depth, before := token :: p.before } after
        | none => none
      | none => none

/-- The tokens of a script, if it can be cut into tokens. -/
def read? (script : List UInt8) : Option (List Token) :=
  let cs := Text.unixLines ((Text.decode script).map fun c => c.getD '\ufffd')
  readFor (2 * cs.length + 2) {} cs

end Token

end TapeMachine.Script
