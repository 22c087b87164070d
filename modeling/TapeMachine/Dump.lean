import TapeMachine.Stream
import TapeMachine.Tape.Snapshot
import TapeMachine.Text.Hex
import TapeMachine.Text.Utf8

/-!
# Memory dumps

A dump shows a snapshot in rows of sixteen bytes: the offset of the row, the bytes in hexadecimal, and the
bytes as characters.  A short row is filled up with zeros and dots.

With color, every byte of a row is styled twice, in both columns, after the region it belongs to, and the
byte under the data pointer is underlined.  The padding is never styled.
-/

set_option autoImplicit false
namespace TapeMachine.Dump

/-- The number of bytes in a row. -/
def rowWidth : Nat :=
  16

/-- The color code of a region. -/
def colorCode? : Region → Option String
  | .storage => some "31"
  | .code => some "94"
  | .data => some "32"
  | .unknown _ => none

/-- The code that underlines a text. -/
def underlineCode : String :=
  "4"

/-- The style codes of a cell. -/
def styleCodes (cell : Cell) (ptr : Int) : List String :=
  (colorCode? cell.region).toList ++ if cell.index = ptr then [underlineCode] else []

/-- A text between the escape sequences that switch its style on and off; without a style it stays as it
is. -/
def styled (codes : List String) (text : List Char) : List Char :=
  if codes.isEmpty then text
  else
    Char.ofNat 27 :: '[' :: ((";".intercalate codes).toList ++ 'm' :: text) ++
      [Char.ofNat 27, '[', '0', 'm']

/-- The text of a cell, styled if there is color. -/
def cellText (color : Bool) (cell : Cell) (ptr : Int) (text : List Char) : List Char :=
  if color then styled (styleCodes cell ptr) text else text

/-- The character shown for a byte: a printable ASCII character as it is, anything else as a dot. -/
def shown (b : UInt8) : Char :=
  if 32 ≤ b ∧ b ≤ 126 then Char.ofNat b.toNat else '.'

/-- One row of a dump, as characters. -/
def rowChars (color : Bool) (offset : Int) (cells : List Cell) (ptr : Int) : List Char :=
  let padding := rowWidth - cells.length
  Text.paddedHex 8 offset ++ [' '] ++
    cells.flatMap (fun c => ' ' :: cellText color c ptr (Text.upperHexByte c.value)) ++
    (List.replicate padding [' ', '0', '0']).flatten ++
    [' ', ' ', '|'] ++
    cells.flatMap (fun c => cellText color c ptr [shown c.value]) ++
    List.replicate padding '.' ++
    ['|', '\n']

/-- One row of a dump.  A row with more than sixteen cells shows them all. -/
def row (color : Bool) (offset : Int) (cells : List Cell) (ptr : Int) : String :=
  String.ofList (rowChars color offset cells ptr)

/-- Cuts a list into pieces of the row width; the last may be shorter. -/
def chunksFor {α : Type} : Nat → List α → List (List α)
  | 0, _ => []
  | _, [] => []
  | n + 1, xs => xs.take rowWidth :: chunksFor n (xs.drop rowWidth)

def chunks {α : Type} (xs : List α) : List (List α) :=
  chunksFor xs.length xs

/-- The rows of some cells, of which the first has the given offset. -/
def rowsFrom (color : Bool) (ptr : Int) : (offset : Nat) → List (List Cell) → List String
  | _, [] => []
  | offset, cells :: rest =>
    row color offset cells ptr :: rowsFrom color ptr (offset + cells.length) rest

/-- The rows of a snapshot, if it can be read. -/
def rows? (color : Bool) (s : Snapshot) : Option (List String) :=
  s.cells?.map fun cells => rowsFrom color s.dataPtr 0 (chunks cells)

/-- The text of a dump. -/
def text? (color : Bool) (s : Snapshot) : Option String :=
  (rows? color s).map String.join

/-- Writes rows to an output, one write each, up to the first that fails. -/
def writeRows : List String → Output → Except String Unit × Output
  | [], out => (.ok (), out)
  | r :: rest, out =>
    match out.write (Text.encode r) with
    | (.ok (), out) => writeRows rest out
    | failed => failed

/-- Writes the dump of a snapshot to an output; a snapshot that cannot be read writes nothing. -/
def render? (color : Bool) (s : Snapshot) (out : Output) : Option (Except String Unit × Output) :=
  (rows? color s).map fun rows => writeRows rows out

/-! ## Color modes -/

/-- Whether a dump is colored in a mode: always, never, or else on terminals unless colors are
unwanted. -/
def colorFor (mode : String) (terminal : Bool) (unwanted : Bool) : Bool :=
  if mode = "always" then true
  else if mode = "never" then false
  else terminal && !unwanted

end TapeMachine.Dump
