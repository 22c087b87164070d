/-!
# Lines

What readers of line-based texts share: blanks, comments that go from a number sign to the end of the line, and
the ends of lines.
-/

set_option autoImplicit false
namespace TapeMachine.Text

def isBlank (c : Char) : Bool :=
  c = ' ' || c = '\t'

/-- Skips blanks inside a line. -/
def skipBlanks (cs : List Char) : List Char :=
  cs.dropWhile isBlank

/-- Skips blanks, line ends and comments, for at most a number of comments. -/
def skipSpaceFor : Nat → List Char → List Char
  | 0, cs => cs
  | n + 1, cs =>
    match cs.dropWhile fun c => isBlank c || c = '\n' with
    | '#' :: rest => skipSpaceFor n (rest.dropWhile (· ≠ '\n'))
    | cs => cs

/-- Skips blanks, line ends and comments. -/
def skipSpace (cs : List Char) : List Char :=
  skipSpaceFor cs.length cs

/-- Ends every line by a newline alone, where it ends by a carriage return or by both. -/
def unixLines : List Char → List Char
  | '\r' :: '\n' :: rest => '\n' :: unixLines rest
  | '\r' :: rest => '\n' :: unixLines rest
  | c :: rest => c :: unixLines rest
  | [] => []

/-- A text without the mark that tells its encoding. -/
def withoutMark : List Char → List Char
  | '\ufeff' :: rest => rest
  | cs => cs

end TapeMachine.Text
