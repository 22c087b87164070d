import TapeMachine.Settings
import TapeMachine.Text.Quoted

/-!
# Flags

The flags of the command, and the text that explains them.  A flag is a toggle, or it takes a value, which is an
integer or any text.
-/

set_option autoImplicit false
namespace TapeMachine

/-- The name that the command goes by. -/
def commandName : String :=
  "bfvm"

/-- The flags there are. -/
inductive Flag where
  | settingsFile
  | color
  | dump
  | program
  | input
  | precompute
  | tickLimit
  | dataLength
  | output
  | verbose
  | extend
  deriving DecidableEq, Repr

/-- What values a flag takes. -/
inductive Flag.Kind where
  | text
  | integer
  | toggle
  deriving DecidableEq, Repr

namespace Flag

/-- All flags, in the order of their names. -/
def all : List Flag :=
  [settingsFile, color, dump, program, input, precompute, tickLimit, dataLength, output, verbose, extend]

def name : Flag → String
  | settingsFile => "c"
  | color => "color"
  | dump => "d"
  | program => "e"
  | input => "i"
  | precompute => "j"
  | tickLimit => "limit"
  | dataLength => "n"
  | output => "o"
  | verbose => "v"
  | extend => "x"

/-- The flag with a name. -/
def ofName? (name : String) : Option Flag :=
  all.find? fun f => f.name = name

def kind : Flag → Kind
  | settingsFile | color | program | input | output => .text
  | tickLimit | dataLength | extend => .integer
  | dump | precompute | verbose => .toggle

/-- What a flag does, in a few words. -/
def description : Flag → String
  | settingsFile => ".toml or .yaml config file to use"
  | color => "Dump color mode: auto, always or never"
  | dump => "Print memory at the end"
  | program => "Eval given program text"
  | input => "Program input"
  | precompute => "Precompute the bracket jump table"
  | tickLimit => "Abort after this many ticks (0 = no limit)"
  | dataLength => "Data region length"
  | output => "Program output"
  | verbose => "Say everything you do"
  | extend => "Extend level (0 = base language, 1 = extended operators)"

/-- The value that counts when the flag is not given, if it is worth mentioning. -/
def mentionedDefault? : Flag → Option String
  | color => some (Text.quoted "auto")
  | input | output => some (Text.quoted "-")
  | dataLength => some "1000"
  | _ => none

/-- What stands for the value of a flag. -/
def Kind.placeholder : Kind → String
  | text => " string"
  | integer => " int"
  | toggle => ""

/-- The explanation of a flag.  It starts on the line of the flag if there is room for it. -/
def help (f : Flag) : String :=
  let start := "  -" ++ f.name ++ f.kind.placeholder
  let gap := if start.length ≤ 4 then "\t" else "\n    \t"
  let mention := match f.mentionedDefault? with
    | some d => " (default " ++ d ++ ")"
    | none => ""
  start ++ gap ++ f.description ++ mention ++ "\n"

/-- The text that explains the command. -/
def usage : String :=
  "usage: " ++ commandName ++ " [flags] [filename]\n\n" ++
    "Tape machine interpreter. If no filename or code given, reads it from stdin.\n" ++
    "Files ending in .star are Starlark scripts that generate the program.\n\n" ++
    String.join (all.map help)

end Flag

end TapeMachine
