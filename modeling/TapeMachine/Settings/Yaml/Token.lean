import TapeMachine.Settings.Yaml.Input
import TapeMachine.Settings.Yaml.Lexeme
import TapeMachine.Settings.Yaml.Scalar

/-!
# Tokens of YAML

A file is read as a sequence of tokens.  Some tokens stand for indentation: a block begins where something
stands deeper than the block around it, and ends where something stands less deep.

Whether a scalar or a bracket begins a key is known only when the colon after it is found.  So the tokens from
there on are held back, and the tokens that tell of the key are put before them.  A key has to stand on one
line, and its colon must follow within a number of characters.

Tokens are made only as they are asked for, but always two more than that, and more while the first one may begin
a key.  What makes a token impossible counts only when it is reached.
-/

set_option autoImplicit false
namespace TapeMachine.Yaml

/-- A token. -/
inductive Token where
  | documentStart
  | documentEnd
  | streamEnd
  | blockSequence
  | blockMapping
  | blockEnd
  | flowSequence
  | flowSequenceEnd
  | flowMapping
  | flowMappingEnd
  | blockEntry
  | flowEntry
  | key
  | value
  | scalar (s : Scalar)
  deriving DecidableEq, Repr

/-- What may turn out to be a key: the number of the token it begins with, and where that stands.  A key is required
where everything else would be out of place. -/
structure Candidate where
  required : Bool
  token : Nat
  index : Nat
  line : Nat
  column : Nat
  deriving Repr

/-- The reader of tokens. -/
structure Scanner where
  rest : List Char
  /-- Whether what follows the rest cannot be read. -/
  broken : Bool
  index : Nat := 0
  line : Nat := 0
  column : Nat := 0
  /-- Whether nothing but blanks stands before on the line, and there is a line before. -/
  freshLine : Bool := false
  /-- The column of the innermost block, and those of the blocks around it. -/
  indent : Int := -1
  indents : List Int := []
  keyAllowed : Bool := true
  /-- What may be a key, inside the innermost brackets, and around each of the brackets. -/
  candidate : Option Candidate := none
  outer : List (Option Candidate) := []
  /-- The number of tokens that were taken. -/
  taken : Nat := 0
  queue : List Token := []

namespace Scanner

/-- The reader at the beginning of a file. -/
def ofInput (input : Input) : Scanner where
  rest := match input.chars with
    | '\ufeff' :: rest => rest
    | chars => chars
  broken := input.broken

def inFlow (s : Scanner) : Bool :=
  !s.outer.isEmpty

/-- Makes sure that some characters can be read, or the end of the file. -/
def need (s : Scanner) (count : Nat) : Option Unit :=
  if s.broken && (s.rest.drop (count - 1)).isEmpty then none else some ()

/-! ## Characters -/

/-- Steps over a character. -/
def step (s : Scanner) : Scanner :=
  match s.rest with
  | [] => s
  | c :: rest =>
    let s := { s with rest, index := s.index + 1 }
    if c = '\r' ∧ rest.head? = some '\n' then s
    else if isBreak c then { s with line := s.line + 1, column := 0, freshLine := true }
    else { s with column := s.column + 1, freshLine := s.freshLine && Text.isBlank c }

/-- Steps over some characters. -/
def advance : Nat → Scanner → Scanner
  | 0, s => s
  | n + 1, s => advance n s.step

/-- Steps over all characters before a rest. -/
def advanceTo (s : Scanner) (rest : List Char) : Scanner :=
  s.advance (s.rest.length - rest.length)

/-! ## Candidates for keys -/

/-- How far behind its beginning the colon of a key may stand. -/
def keyReach : Nat :=
  1024

/-- Whether a candidate can no longer be a key. -/
def isStale (s : Scanner) (k : Candidate) : Bool :=
  k.line < s.line || k.index + keyReach < s.index

/-- Whether a candidate may still be a key.  One that has to be must not be too old. -/
def mayBeKey? (s : Scanner) (k : Candidate) : Option Bool :=
  if s.isStale k then if k.required then none else some false else some true

/-- Gives up the candidate inside the innermost brackets. -/
def dropCandidate (s : Scanner) : Option Scanner :=
  if s.candidate.any (·.required) then none else some { s with candidate := none }

/-- The number of the next token. -/
def nextNumber (s : Scanner) : Nat :=
  s.taken + s.queue.length

/-- Makes what stands here a candidate, if keys are allowed here. -/
def saveCandidate (s : Scanner) : Option Scanner :=
  if s.keyAllowed then do
    let required := !s.inFlow && s.indent = s.column
    let s ← s.dropCandidate
    let candidate := ⟨required, s.nextNumber, s.index, s.line, s.column⟩
    return { s with candidate := some candidate }
  else some s

/-! ## Tokens -/

/-- Adds a token. -/
def push (s : Scanner) (t : Token) : Scanner :=
  { s with queue := s.queue ++ [t] }

/-- Puts a token before the one with a number. -/
def insert (s : Scanner) (number : Nat) (t : Token) : Scanner :=
  let (before, after) := s.queue.splitAt (number - s.taken)
  { s with queue := before ++ t :: after }

/-- Begins a block at a column, before the token with a number, if it stands deeper than the innermost one. -/
def beginBlock (s : Scanner) (column number : Nat) (t : Token) : Scanner :=
  if s.inFlow || column ≤ s.indent then s
  else { s.insert number t with indents := s.indent :: s.indents, indent := column }

/-- The blocks around, innermost first, without those that end where something stands at a column, and how many
of them end. -/
def endedBlocks (column : Int) : Int → List Int → Nat → Int × List Int × Nat
  | indent, [], count => (indent, [], count)
  | indent, outer :: rest, count =>
    if column < indent then endedBlocks column outer rest (count + 1) else (indent, outer :: rest, count)

/-- Ends the blocks that stand deeper than a column. -/
def endBlocks (s : Scanner) (column : Int) : Scanner :=
  if s.inFlow then s
  else
    let (indent, indents, count) := endedBlocks column s.indent s.indents 0
    { s with indent, indents, queue := s.queue ++ List.replicate count .blockEnd }

/-- The greatest depth of brackets. -/
def depthLimit : Nat :=
  10000

/-- Opens a bracket, which may begin a key. -/
def openBracket (s : Scanner) (t : Token) : Option Scanner := do
  let s ← s.saveCandidate
  guard (s.outer.length < depthLimit)
  return { s with outer := s.candidate :: s.outer, candidate := none, keyAllowed := true }.step.push t

/-- Closes a bracket. -/
def closeBracket (s : Scanner) (t : Token) : Option Scanner := do
  let s ← s.dropCandidate
  let s := match s.outer with
    | candidate :: outer => { s with candidate, outer }
    | [] => s
  return { s with keyAllowed := false }.step.push t

/-- A comma inside brackets. -/
def flowEntry (s : Scanner) : Option Scanner := do
  let s ← s.dropCandidate
  return { s with keyAllowed := true }.step.push .flowEntry

/-- The dash before an item.  Inside brackets it is out of place, which is found out later. -/
def blockEntry (s : Scanner) : Option Scanner := do
  guard (s.inFlow || s.keyAllowed)
  let s := s.beginBlock s.column s.nextNumber .blockSequence
  let s ← s.dropCandidate
  return { s with keyAllowed := true }.step.push .blockEntry

/-- The mark before a key. -/
def keyMark (s : Scanner) : Option Scanner := do
  guard (s.inFlow || s.keyAllowed)
  let s := s.beginBlock s.column s.nextNumber .blockMapping
  let s ← s.dropCandidate
  return { s with keyAllowed := !s.inFlow }.step.push .key

/-- The candidate that a colon at this place makes a key. -/
def confirmed? (s : Scanner) : Option (Option Candidate) :=
  match s.candidate with
  | none => some none
  | some k => (s.mayBeKey? k).map fun b => if b then some k else none

/-- The colon before a value. -/
def valueMark (s : Scanner) : Option Scanner := do
  match ← s.confirmed? with
  | some k =>
    let s := (s.insert k.token .key).beginBlock k.column k.token .blockMapping
    return { s with candidate := none, keyAllowed := false }.step.push .value
  | none =>
    guard (s.inFlow || s.keyAllowed)
    let s := s.beginBlock s.column s.nextNumber .blockMapping
    return { s with keyAllowed := !s.inFlow }.step.push .value

/-- A quoted scalar. -/
def quotedScalar (s : Scanner) (double : Bool) : Option Scanner := do
  let s ← s.saveCandidate
  let (text, rest) ← quoted? double s.rest.tail
  let token := .scalar ⟨true, String.ofList text⟩
  return ({ s with keyAllowed := false }.advanceTo rest).push token

/-- A plain scalar. -/
def plainScalar (s : Scanner) : Option Scanner := do
  let s ← s.saveCandidate
  let p ← plain? s.inFlow (s.indent + 1).toNat s.rest
  let token := .scalar ⟨false, String.ofList p.text⟩
  return ({ s with keyAllowed := p.ended }.advanceTo p.rest).push token

/-- The token that a document begins or ends with. -/
def documentMark (s : Scanner) (t : Token) : Option Scanner := do
  let s ← (s.endBlocks (-1)).dropCandidate
  return ({ s with keyAllowed := false }.advance 3).push t

/-- The token at the end of the file. -/
def endOfStream (s : Scanner) : Option Scanner := do
  let s := if s.column = 0 then s else { s with column := 0, line := s.line + 1 }
  let s ← (s.endBlocks (-1)).dropCandidate
  return { s with keyAllowed := false }.push .streamEnd

/-- The token that begins with a character. -/
def contentToken (s : Scanner) (c : Char) : Option Scanner :=
  let spaceFollows := atSpace s.rest.tail
  match c with
  | '[' => s.openBracket .flowSequence
  | '\x7b' => s.openBracket .flowMapping
  | ']' => s.closeBracket .flowSequenceEnd
  | '\x7d' => s.closeBracket .flowMappingEnd
  | ',' => s.flowEntry
  | '"' => s.quotedScalar true
  | '\'' => s.quotedScalar false
  | c =>
    if c = '-' && spaceFollows then s.blockEntry
    else if c = '?' && (s.inFlow || spaceFollows) then s.keyMark
    else if c = ':' && (s.inFlow || spaceFollows) then s.valueMark
    else if startsPlain s.inFlow s.rest then s.plainScalar
    else none

/-- Skips what stands before the next token. -/
def skipSpace (s : Scanner) : Scanner :=
  let (ended, rest) :=
    afterSpaceFor s.inFlow (s.rest.length + 1) (s.inFlow || !s.keyAllowed) false s.rest
  { s.advanceTo rest with keyAllowed := s.keyAllowed || (ended && !s.inFlow) }

/-- Skips a comment on the line of the last token.  A dash has none. -/
def skipLineComment (s : Scanner) : Scanner :=
  if s.freshLine || s.queue.getLast? = some .blockEntry then s
  else s.advanceTo (afterLineComment s.rest)

/-- Makes the next token. -/
def fetch (s : Scanner) : Option Scanner := do
  let s := s.skipSpace
  s.need 4
  let s := s.endBlocks s.column
  match s.rest with
  | [] => s.endOfStream
  | c :: _ =>
    if s.column = 0 && startsWithMark '-' s.rest then s.documentMark .documentStart
    else if s.column = 0 && startsWithMark '.' s.rest then s.documentMark .documentEnd
    else
      let s ← s.contentToken c
      let s := s.skipLineComment
      s.need 1
      return s

/-! ## Taking tokens -/

/-- The number of tokens that are made ahead. -/
def lookahead : Nat :=
  3

/-- Whether the next token may begin a key. -/
def headMayBeKey? (s : Scanner) : Option Bool :=
  match (s.candidate :: s.outer).find? fun k => k.any (·.token = s.taken) with
  | some (some k) => s.mayBeKey? k
  | _ => some false

/-- Makes tokens until the next one can be taken, at most a number of them. -/
def fillFor : Nat → Scanner → Option Scanner
  | 0, _ => none
  | n + 1, s => do
    if s.queue.length < lookahead then fillFor n (← s.fetch)
    else if ← s.headMayBeKey? then fillFor n (← s.fetch)
    else return s

/-- The next token, which stays. -/
def peek (s : Scanner) : Option (Token × Scanner) := do
  let s ← s.fillFor (s.rest.length + 2 * lookahead)
  return (s.queue.headD .streamEnd, s)

/-- Takes the next token, which was looked at before. -/
def drop (s : Scanner) : Scanner :=
  { s with queue := s.queue.tail, taken := s.taken + 1 }

end Scanner

end TapeMachine.Yaml
