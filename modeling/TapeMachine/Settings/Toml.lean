import TapeMachine.Settings
import TapeMachine.Settings.Toml.Document
import TapeMachine.Settings.Toml.Lexeme
import TapeMachine.Text.Fold
import TapeMachine.Text.Utf8

/-!
# The bundled decoder for TOML

A file is read as a whole: if any of it is malformed, if a key is defined twice, or if a known key has a value of
the wrong type, then nothing of it counts.

Keys are compared with the names of the fields without regard to case.  Unknown keys and tables are
read, and then ignored.

Dates and times are not known here: a file with one of them is refused.
-/

set_option autoImplicit false
namespace TapeMachine.Toml

open Text (isBlank skipBlanks)

/-- Reads definitions from characters. -/
structure State where
  rest : List Char
  document : Document := {}

abbrev Reader : Type → Type :=
  StateT State Option

/-! ## Characters -/

/-- Whether a character may stand in a file. -/
def isAllowed (c : Char) : Bool :=
  (0x20 ≤ c.toNat && c.toNat ≠ 0x7f) || c = '\t' || c = '\n'

/-- Whether only characters that may stand in a file do, and every carriage return ends a line. -/
def allAllowed : List Char → Bool
  | '\r' :: cs => cs.head? = some '\n' && allAllowed cs
  | c :: cs => isAllowed c && allAllowed cs
  | [] => true

/-- A file without the mark that tells its encoding. -/
def withoutMark : List UInt8 → List UInt8
  | 0xef :: 0xbb :: 0xbf :: rest => rest
  | 0xff :: 0xfe :: rest => rest
  | 0xfe :: 0xff :: rest => rest
  | bytes => bytes

/-- Applies a reader of lexemes. -/
def lexeme {α : Type} (read? : List Char → Option (α × List Char)) : Reader α :=
  fun s => (read? s.rest).map fun (a, rest) => (a, { s with rest })

/-- The next character, which stays. -/
def peek : Reader (Option Char) :=
  return (← get).rest.head?

/-- Takes some characters. -/
def drop (count : Nat) : Reader Unit :=
  modify fun s => { s with rest := s.rest.drop count }

/-- Skips characters of a class. -/
def skipWhile (skipped : Char → Bool) : Reader Unit :=
  modify fun s => { s with rest := s.rest.dropWhile skipped }

/-- Takes a character that has to be there. -/
def expect (c : Char) : Reader Unit := do
  if (← peek) = some c then drop 1 else failure

/-- Changes the document, if that can be done. -/
def change (f : Document → Option Document) : Reader Unit :=
  fun s => (f s.document).map fun document => ((), { s with document })

/-- Skips blanks, line ends and comments, for at most a number of comments. -/
def skipSpaceFor : Nat → Reader Unit
  | 0 => return ()
  | n + 1 => do
    skipWhile fun c => isBlank c || isLineEnd c
    if (← peek) = some '#' then
      skipWhile fun c => !isLineEnd c
      skipSpaceFor n

/-- Skips blanks, line ends and comments. -/
def skipSpace : Reader Unit := do
  skipSpaceFor ((← get).rest.length + 1)

/-! ## Values -/

/-- Reads a word for a truth value. -/
def truthValue? (cs : List Char) : Option (Value × List Char) :=
  if cs.take 4 = ['t', 'r', 'u', 'e'] then some (.bool true, cs.drop 4)
  else if cs.take 5 = ['f', 'a', 'l', 's', 'e'] then some (.bool false, cs.drop 5)
  else none

/-- Reads a value that has no parts. -/
def plainValue? (cs : List Char) : Option (Value × List Char) :=
  match cs with
  | '"' :: rest => (text? '"' rest).map fun (text, rest) => (.text (String.ofList text), rest)
  | '\'' :: rest => (text? '\'' rest).map fun (text, rest) => (.text (String.ofList text), rest)
  | 't' :: _ | 'f' :: _ => truthValue? cs
  | cs =>
    match number? cs with
    | some (.integer n, rest) => some (.int n, rest)
    | some (.fraction, rest) => some (.other, rest)
    | none => none

mutual

/-- Reads the value of a key of the current table. -/
def valueFor : Nat → (key : String) → (inArray : Bool) → Reader Value
  | 0, _, _ => failure
  | n + 1, key, inArray => do
    skipWhile isBlank
    match ← peek with
    | some '[' =>
      drop 1
      change fun d => some (d.record key true)
      itemsFor n key
      return .array
    | some '\x7b' =>
      drop 1
      let context := (← get).document.context
      let table := context ++ [key]
      change fun d => (d.addImplicit table).openTable? table inArray
      skipWhile isBlank
      if (← peek) = some '\x7d' then drop 1 else pairsFor n table
      change fun d => some { d with context }
      return .table
    | _ => lexeme plainValue?

/-- Reads the items of an array, up to its end. -/
def itemsFor : Nat → (key : String) → Reader Unit
  | 0, _ => failure
  | n + 1, key => do
    skipSpace
    if (← peek) = some ']' then drop 1
    else
      let _ ← valueFor n key true
      skipSpace
      match ← peek with
      | some ',' =>
        drop 1
        itemsFor n key
      | some ']' => drop 1
      | _ => failure

/-- Reads a key and its value into the current table, and goes back to a table. -/
def pairFor : Nat → (table : List String) → Reader Unit
  | 0, _ => failure
  | n + 1, table => do
    let parts ← lexeme key?
    expect '='
    change fun d => d.openParts? parts
    let key := parts.getLastD ""
    let v ← valueFor n key false
    change fun d => d.define? d.context key v false
    change fun d => some { d.record key (v = .array) with context := table }

/-- Reads the keys and values of a table in brackets, up to its end. -/
def pairsFor : Nat → (table : List String) → Reader Unit
  | 0, _ => failure
  | n + 1, table => do
    pairFor n table
    skipWhile isBlank
    match ← peek with
    | some ',' =>
      drop 1
      pairsFor n table
    | some '\x7d' => drop 1
    | _ => failure

end

/-! ## Lines -/

/-- Reads the line that opens a table, after its first bracket. -/
def tableLine : Reader Unit := do
  let inArray := (← peek) = some '['
  if inArray then drop 1
  let key ← lexeme key?
  expect ']'
  if inArray then expect ']'
  change fun d => d.openTable? key inArray
  change fun d => some (d.record "" false)

/-- Reads the end of a line, which may hold a comment. -/
def lineEnd : Reader Unit := do
  skipWhile isBlank
  match ← peek with
  | none => return ()
  | some c => if c = '#' || isLineEnd c then return () else failure

/-- Reads lines, at most a number of them. -/
def linesFor : Nat → Reader Unit
  | 0 => failure
  | n + 1 => do
    skipSpace
    match ← peek with
    | none => return ()
    | some '[' =>
      drop 1
      tableLine
      lineEnd
      linesFor n
    | some _ =>
      let s ← get
      pairFor (2 * s.rest.length + 2) s.document.context
      lineEnd
      linesFor n

/-- What a file defines, if it can be read. -/
def read? (file : List UInt8) : Option Document := do
  let cs ← Text.decode? (withoutMark file)
  guard (allAllowed cs)
  let ((), s) ← (linesFor (cs.length + 1)).run { rest := cs }
  return s.document

/-! ## Settings -/

/-- How fields are read from values. -/
def fieldReader : FieldReader Value where
  int
    | .int n => some n
    | _ => none
  bool
    | .bool b => some b
    | _ => none
  text
    | .text s => some s
    | _ => none

/-- The field that a key names, given how fields are spelt. -/
def fieldOf? (spelling : Field → String) (key : String) : Option Field :=
  Field.spelt? (fun f => Text.fold (spelling f)) (Text.fold key)

/-- The assignments of some keys and values; keys that name no field make none. -/
def settingsOf? (spelling : Field → String) : List (List String × Value) → Option (List Setting)
  | [] => some []
  | ([key], v) :: rest =>
    match fieldOf? spelling key with
    | none => settingsOf? spelling rest
    | some f => do
      let c ← fieldReader.read? f v
      let cs ← settingsOf? spelling rest
      return c :: cs
  | _ :: rest => settingsOf? spelling rest

/-- The assignments of a file, if all of it can be read. -/
def settings? (spelling : Field → String) (file : List UInt8) : Option (List Setting) := do
  let d ← read? file
  settingsOf? spelling d.entries.reverse

/-- Carries out the assignments of a file. -/
def decode (spelling : Field → String) (file : List UInt8) (s : Settings) : Settings × Option Error :=
  match settings? spelling file with
  | some changes => (s.assignAll changes, none)
  | none => (s, some .malformed)

end TapeMachine.Toml
