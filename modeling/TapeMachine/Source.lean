import TapeMachine.Event
import TapeMachine.Files
import TapeMachine.Script.Library
import TapeMachine.Stream
import TapeMachine.Text.Fold

/-!
# Where programs come from

A program is given on the command line, read from an input, or read from a file.  A file whose extension is
`.star`, in any case, is a script that generates the program: the program is the value of the script's
global `program`, a text or a list of texts.

A script is carried out by a library, and may call three helpers that write program text.  `add` and `move`
repeat an operator, one way for positive counts and the other way for negative ones, and `loop` puts a text
between brackets.  The number of repetitions is limited.

Program text is taken as it is.  Bytes that are no operators stay in it.
-/

set_option autoImplicit false
namespace TapeMachine

/-- Where a program was read from. -/
inductive Origin where
  | file
  | inline
  | stdin
  | script
  deriving DecidableEq, Repr

def Origin.name : Origin → String
  | file => "file"
  | inline => "inline"
  | stdin => "stdin"
  | script => "starlark"

/-- A program that was loaded. -/
structure Program where
  origin : Origin
  name : String
  text : List UInt8
  deriving DecidableEq, Repr

namespace Program

/-- The event that tells of a loaded program. -/
def event (p : Program) : Event :=
  .reading p.origin.name p.name p.text.length

/-- An error in loading a program. -/
def failure (origin : Origin) (name : String) (cause : Error) : Error :=
  .source origin.name name cause

/-- Program text given on the command line. -/
def ofText (text : List UInt8) : Program :=
  ⟨.inline, "-e", text⟩

/-- All text of an input, which has to end properly. -/
def ofInput (name : String) (input : Input) : Except Error Program :=
  match input.ending with
  | .closed | .written _ => .ok ⟨.stdin, name, input.rest⟩
  | .cutShort => .error (failure .stdin name .malformed)
  | .failed e => .error (failure .stdin name (.stream e))

/-- The text of a file. -/
def ofFile (fs : Files) (path : String) : Except Error Program :=
  match fs.read path with
  | .ok text => .ok ⟨.file, path, text⟩
  | .error e => .error (failure .file path e)

/-! ## Scripts -/

/-- The greatest count that a helper accepts, either way: `2 ^ 20`. -/
def repeatLimit : Int :=
  1048576

variable (lib : Script.Library)

/-- The helper that repeats one operator for positive counts, and another one for negative counts. -/
def runHelper (up down : UInt8) (name : String) : Script.Helper lib.Value :=
  fun args named => do
    let n ← lib.wordArgument name args named
    if repeatLimit < n ∨ n < -repeatLimit then throw (.call name Condition.repeatLimit)
    let (op, n) := if n < 0 then (down, -n) else (up, n)
    return lib.ofText (List.replicate n.toNat op)

/-- The helper that puts a text between brackets. -/
def loopHelper (name : String) : Script.Helper lib.Value :=
  fun args named => do
    let body ← lib.textArgument name args named
    return lib.ofText (0x5b :: body ++ [0x5d])

/-- The helpers that scripts may call, by their names. -/
def helpers : List (String × Script.Helper lib.Value) :=
  [("add", runHelper lib 0x2b 0x2d "add"), ("move", runHelper lib 0x3e 0x3c "move"),
    ("loop", loopHelper lib "loop")]

/-- The text of a list of texts, after the text before them, which is given backwards. -/
def textOfItems : List UInt8 → List lib.Value → Except Error (List UInt8)
  | before, [] => .ok before.reverse
  | before, v :: rest =>
    match lib.text? v with
    | some bs => textOfItems (bs.reverse ++ before) rest
    | none => .error Condition.programType

/-- The program text that a value stands for. -/
def textOfValue (v : lib.Value) : Except Error (List UInt8) :=
  match lib.text? v with
  | some bs => .ok bs
  | none =>
    match lib.items? v with
    | some items => textOfItems lib [] items
    | none => .error Condition.programType

/-- The program text that a script generates. -/
def textOfScript (name : String) (script : List UInt8) : Except Error (List UInt8) :=
  match lib.exec (helpers lib) name script with
  | .error e => .error e
  | .ok globals =>
    match globals "program" with
    | some v => textOfValue lib v
    | none => .error Condition.programMissing

/-- The program that a script generates. -/
def ofScript (name : String) (script : List UInt8) : Except Error Program :=
  match textOfScript lib name script with
  | .ok text => .ok ⟨.script, name, text⟩
  | .error e => .error (failure .script name e)

/-- The extension of scripts. -/
def scriptExtension : String :=
  ".star"

/-- The program of a file: what its script generates, or its text. -/
def load (fs : Files) (path : String) : Except Error Program :=
  if Text.fold (extension path) = scriptExtension then
    match fs.read path with
    | .ok script => ofScript lib path script
    | .error e => .error (failure .script path e)
  else ofFile fs path

end Program

end TapeMachine
