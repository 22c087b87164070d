import TapeMachine.Text.Escape
import TapeMachine.Text.Lines

/-!
# Lexemes of YAML

Scalars may go over several lines.  Where a line ends inside a scalar, the end and the blanks around it become a
space; if more lines end there, the first one does not count and the others do.

Comments go from a number sign to the end of the line.  Comments that follow each other, with only blanks and
line ends between them, are skipped as one.
-/

set_option autoImplicit false
namespace TapeMachine.Yaml

open Text (isBlank)

/-! ## Line ends -/

/-- Whether a character ends a line. -/
def isBreak (c : Char) : Bool :=
  c = '\n' || c = '\r' || c = '\u0085' || c = '\u2028' || c = '\u2029'

/-- What is kept of a line end inside a scalar. -/
def breakText (c : Char) : List Char :=
  if c = '\u2028' ∨ c = '\u2029' then [c] else ['\n']

/-- Whether a text begins with a blank or a line end, or is at its end. -/
def atSpace : List Char → Bool
  | [] => true
  | c :: _ => isBlank c || isBreak c

/-- The text from the end of the line on. -/
def lineEnd (cs : List Char) : List Char :=
  cs.dropWhile fun c => !isBreak c

/-- The text after a line end at its front. -/
def afterBreak : List Char → List Char
  | '\r' :: '\n' :: rest => rest
  | cs => cs.tail

/-- Whether a line begins with three times the same character and nothing else. -/
def startsWithMark (mark : Char) (cs : List Char) : Bool :=
  cs.take 3 = [mark, mark, mark] && atSpace (cs.drop 3)

/-- Whether a document begins or ends at this line. -/
def atDocumentMark (cs : List Char) : Bool :=
  startsWithMark '-' cs || startsWithMark '.' cs

/-! ## Comments -/

/-- How far is looked for a comment. -/
def commentReach : Nat :=
  512

/-- The next comment after the end of a line, if nothing but blanks and plain line ends is between. -/
def nextComment? : List Char → Option (List Char)
  | c :: rest =>
    if c = '\n' ∨ c = '\r' then
      let between := (rest.take (commentReach - 1)).takeWhile fun c =>
        isBlank c || c = '\n' || c = '\r'
      match rest.drop between.length with
      | '#' :: comment => if between.length + 1 < commentReach then some comment else none
      | _ => none
    else none
  | [] => none

/-- The text after some comments, of which the sign of the first was taken, at the end of a line. -/
def afterCommentsFor : Nat → List Char → List Char
  | 0, cs => lineEnd cs
  | n + 1, cs =>
    match nextComment? (lineEnd cs) with
    | some comment => afterCommentsFor n comment
    | none => lineEnd cs

/-- The text after a comment behind something else on the line, if there is one. -/
def afterLineComment (cs : List Char) : List Char :=
  let blanks := (cs.take commentReach).takeWhile isBlank
  match cs.drop blanks.length with
  | '#' :: rest => if blanks.length < commentReach then lineEnd rest else cs
  | _ => cs

/-- The text after blanks, line ends and comments, and whether a line ended.  Whether tabs are blanks is told, and
may be different on further lines. -/
def afterSpaceFor (laterTabs : Bool) : Nat → (tabs ended : Bool) → List Char → Bool × List Char
  | 0, _, ended, cs => (ended, cs)
  | _, _, ended, [] => (ended, [])
  | n + 1, tabs, ended, c :: rest =>
    if c = ' ' || (c = '\t' && tabs) then afterSpaceFor laterTabs n tabs ended rest
    else if c = '#' then afterSpaceFor laterTabs n tabs ended (afterCommentsFor rest.length rest)
    else if isBreak c then afterSpaceFor laterTabs n laterTabs true rest
    else (ended, c :: rest)

/-! ## Gaps in a scalar -/

/-- What stands between two words of a scalar: some blanks, or line ends. -/
structure Gap where
  blanks : List Char := []
  /-- Whether a line ended. -/
  ended : Bool := false
  first : List Char := []
  later : List Char := []
  /-- The column at which the gap ends, if a line ended. -/
  column : Nat := 0

namespace Gap

/-- Adds a blank.  Those after a line end do not count. -/
def addBlank (g : Gap) (c : Char) : Gap :=
  if g.ended then { g with column := g.column + 1 } else { g with blanks := g.blanks ++ [c] }

/-- Adds the end of a line.  Blanks before the first one do not count. -/
def addBreak (g : Gap) (text : List Char) : Gap :=
  if g.ended then { g with later := g.later ++ text, column := 0 } else { ended := true, first := text }

/-- What becomes of a gap. -/
def text (g : Gap) : List Char :=
  if !g.ended then g.blanks
  else if g.first = ['\n'] then if g.later.isEmpty then [' '] else g.later
  else g.first ++ g.later

/-- Whether a gap ends at the beginning of a line. -/
def atLineStart (g : Gap) : Bool :=
  g.ended && g.column = 0

/-- Reads a gap.  A tab must not stand before a column. -/
def read? (least : Nat) : Gap → List Char → Option (Gap × List Char)
  | g, '\r' :: '\n' :: rest => read? least (g.addBreak ['\n']) rest
  | g, c :: rest =>
    if isBlank c then
      if c = '\t' ∧ g.ended ∧ g.column < least then none else read? least (g.addBlank c) rest
    else if isBreak c then read? least (g.addBreak (breakText c)) rest
    else some (g, c :: rest)
  | g, [] => some (g, [])

end Gap

/-! ## Plain scalars -/

/-- The characters that end a plain scalar inside brackets. -/
def isFlowMark (c : Char) : Bool :=
  [',', '?', '[', ']', '\x7b', '\x7d'].contains c

/-- The characters that no plain scalar begins with. -/
def isIndicator (c : Char) : Bool :=
  isFlowMark c ||
    ['-', ':', '#', '&', '*', '!', '|', '>', '\'', '"', '%', '@', '\x60'].contains c

/-- Whether a plain scalar begins here. -/
def startsPlain (inFlow : Bool) : List Char → Bool
  | [] => false
  | c :: rest =>
    (!isBlank c && !isBreak c && !isIndicator c) || (c = '-' && !atSpace rest) ||
      (!inFlow && (c = '?' || c = ':') && !atSpace rest)

/-- The word of a plain scalar at the front of a text. -/
def plainWord (inFlow : Bool) : List Char → List Char
  | [] => []
  | c :: rest =>
    if isBlank c || isBreak c || (c = ':' && atSpace rest) || (inFlow && isFlowMark c) then []
    else c :: plainWord inFlow rest

/-- A plain scalar that was read: its text, whether a line ended after it, and the rest. -/
structure Plain where
  text : List Char
  ended : Bool
  rest : List Char

/-- Reads the words of a plain scalar, after those before, which are given backwards, and a gap.  Outside of
brackets its lines have to begin at a column or behind it. -/
def plainFor (inFlow : Bool) (least : Nat) : Nat → List Char → Gap → List Char → Option Plain
  | 0, _, _, _ => none
  | n + 1, before, g, cs =>
    let word := plainWord inFlow cs
    if (g.atLineStart && atDocumentMark cs) || cs.head? = some '#' || word.isEmpty then
      some ⟨before.reverse, g.ended, cs⟩
    else
      let before := word.reverse ++ (g.text.reverse ++ before)
      let rest := cs.drop word.length
      if rest.isEmpty || !atSpace rest then some ⟨before.reverse, false, rest⟩
      else
        match Gap.read? least {} rest with
        | none => none
        | some (g, rest) =>
          if !inFlow && g.ended && g.column < least then some ⟨before.reverse, true, rest⟩
          else plainFor inFlow least n before g rest

/-- Reads a plain scalar. -/
def plain? (inFlow : Bool) (least : Nat) (cs : List Char) : Option Plain :=
  plainFor inFlow least (cs.length + 1) [] {} cs

/-! ## Quoted scalars -/

/-- The character an escape letter stands for. -/
def escaped? (c : Char) : Option Char :=
  match c with
  | '0' => some '\x00'
  | 'a' => some '\x07'
  | 'b' => some '\x08'
  | 't' | '\t' => some '\t'
  | 'n' => some '\n'
  | 'v' => some '\x0b'
  | 'f' => some '\x0c'
  | 'r' => some '\r'
  | 'e' => some '\x1b'
  | ' ' => some ' '
  | '"' => some '"'
  | '\'' => some '\''
  | '\\' => some '\\'
  | 'N' => some '\u0085'
  | '_' => some '\u00a0'
  | 'L' => some '\u2028'
  | 'P' => some '\u2029'
  | _ => none

/-- How many digits follow an escape letter that names a character by its number. -/
def escapeDigits? (c : Char) : Option Nat :=
  match c with
  | 'x' => some 2
  | 'u' => some 4
  | 'U' => some 8
  | _ => none

/-- The character of an escape, from behind its backslash on, and the rest. -/
def escape? : List Char → Option (Char × List Char)
  | [] => none
  | c :: rest =>
    match escapeDigits? c with
    | some width =>
      let digits := rest.take width
      if digits.length < width then none
      else (Text.scalarChar? digits).map fun c => (c, rest.drop width)
    | none => (escaped? c).map fun c => (c, rest)

/-- Reads a quoted scalar up to its closing quote, after the text before, which is given backwards.  No document
may begin or end inside.  In single quotes there are no escapes, and a quote that stands twice is one of the
text. -/
def quotedFor (double : Bool) : Nat → (lineStart : Bool) → List Char → List Char →
    Option (List Char × List Char)
  | 0, _, _, _ => none
  | _, _, _, [] => none
  | n + 1, lineStart, before, c :: rest =>
    let afterGap (g : Gap) (cs : List Char) :=
      match Gap.read? 0 g cs with
      | some (g, rest) => quotedFor double n g.atLineStart (g.text.reverse ++ before) rest
      | none => none
    if lineStart && atDocumentMark (c :: rest) then none
    else if atSpace (c :: rest) then afterGap {} (c :: rest)
    else if double then
      if c = '"' then some (before.reverse, rest)
      else if c = '\\' then
        if rest.head?.any isBreak then afterGap { ended := true } (afterBreak rest)
        else
          match escape? rest with
          | some (c, rest) => quotedFor double n false (c :: before) rest
          | none => none
      else quotedFor double n false (c :: before) rest
    else if c = '\'' then
      if rest.head? = some '\'' then quotedFor double n false (c :: before) rest.tail
      else some (before.reverse, rest)
    else quotedFor double n false (c :: before) rest

/-- Reads a quoted scalar after its opening quote. -/
def quoted? (double : Bool) (cs : List Char) : Option (List Char × List Char) :=
  quotedFor double (cs.length + 1) false [] cs

end TapeMachine.Yaml
