import TapeMachine.Command.Invocation
import TapeMachine.Dump
import TapeMachine.Emulator
import TapeMachine.Settings.Environment
import TapeMachine.Settings.File
import TapeMachine.Source

/-!
# The command

From arguments and surroundings to a report: what was printed, what was written, and the exit status.

`start` reads the arguments, puts the settings together, loads the program and opens its input and output.  If
nothing goes wrong until then there is a session, which is run and then finished.  Since a program may run
forever, a session is run for a number of ticks at a time.

Settings come from four places.  The defaults are overridden by the settings file, that by the environment, and
that by the flags.

Scripts and settings files are read by libraries, which the command is given.
-/

set_option autoImplicit false
namespace TapeMachine

/-- The libraries that the command makes use of. -/
structure Libraries where
  script : Script.Library
  decoder : Settings.Format → Settings.Decoder

/-- What the command finds when it is started. -/
structure Surroundings where
  environment : Environment := []
  stdin : List UInt8 := []
  files : Files := {}
  /-- Whether the standard output is a terminal. -/
  terminal : Bool := false

/-- What the command leaves behind. -/
structure Report where
  exit : Nat
  stdout : List UInt8 := []
  stderr : String := ""
  files : Files

namespace Report

/-- Ends a text with a line end, if it does not have one. -/
def line (text : String) : String :=
  if text.toList.getLast? = some '\n' then text else text ++ "\n"

/-- What is said at the end about a failure. -/
def failureLine (text : String) : String :=
  line (commandName ++ ": " ++ text)

/-- The report after a failure that is told by a text, given what was logged before. -/
def failed (files : Files) (log : String) (text : String) : Report :=
  { exit := 1, stderr := log ++ failureLine text, files }

/-- The report after arguments that could not be used. -/
def refused (files : Files) (p : Invocation.Problem) : Report :=
  { exit := p.exit, stderr := p.message ++ Flag.usage, files }

end Report

/-! ## Settings and streams -/

/-- A file that takes the output of a program: its path, and the names the path comes down to. -/
structure OutputFile where
  path : String
  names : List String
  deriving DecidableEq, Repr

namespace Invocation

/-- The path of the program, if there is one. -/
def path (inv : Invocation) : String :=
  inv.operands.head?.getD ""

/-- The settings before the environment and the flags are looked at. -/
def fileSettings (libs : Libraries) (inv : Invocation) (fs : Files) : Except Error Settings :=
  if inv.settingsFile = "" then .ok {}
  else
    match Settings.load libs.decoder fs inv.settingsFile {} with
    | (s, none) => .ok s
    | (_, some e) => .error e

/-- The settings from all places, unchecked. -/
def mergedSettings (libs : Libraries) (inv : Invocation) (w : Surroundings) : Except Error Settings := do
  let s ← inv.fileSettings libs w.files
  match s.fromEnvironment w.environment with
  | (s, none) => .ok (s.assignAll inv.changes)
  | (_, some e) => .error e

/-- The settings from all places. -/
def settings (libs : Libraries) (inv : Invocation) (w : Surroundings) : Except Error Settings := do
  let s ← inv.mergedSettings libs w
  match s.validate with
  | none => .ok s
  | some e => .error e

/-- Whether the program is read from the standard input, so that nothing of it is left. -/
def readsProgram (inv : Invocation) : Bool :=
  inv.path = "" && inv.program = ""

/-- The name that stands for the standard input or output. -/
def standardStream : String :=
  "-"

/-- Whether the standard input is read at all. -/
def readsStdin (inv : Invocation) : Bool :=
  inv.readsProgram || inv.input = standardStream

/-- The program to run. -/
def loadProgram (libs : Libraries) (inv : Invocation) (w : Surroundings) : Except Error Program :=
  if inv.path ≠ "" then Program.load libs.script w.files inv.path
  else if inv.program ≠ "" then .ok (Program.ofText (Text.encode inv.program))
  else Program.ofInput "stdin" ⟨w.stdin, .closed⟩

/-- The input of the program.  A directory can be opened as one, but fails to be read. -/
def openInput (inv : Invocation) (w : Surroundings) : Except Error Input :=
  if inv.input = standardStream then
    .ok ⟨if inv.readsProgram then [] else w.stdin, .closed⟩
  else
    match w.files.openInput inv.input with
    | .ok (.ok bytes) => .ok ⟨bytes, .closed⟩
    | .ok (.error e) => .ok ⟨[], .failed e.message⟩
    | .error e => .error e

/-- The file that takes the output of the program, if that is not the standard output. -/
def openOutput (inv : Invocation) (w : Surroundings) : Except Error (Option OutputFile) :=
  if inv.output = standardStream then .ok none
  else (w.files.openOutput inv.output).map fun names => some ⟨inv.output, names⟩

/-- Whether the input of the program is the file that takes its output. -/
def readsOutput (inv : Invocation) (files : Files) (outputFile : Option OutputFile) : Bool :=
  match files.resolve inv.input, outputFile with
  | .ok (.file names _), some file => inv.input ≠ standardStream && names = file.names
  | _, _ => false

end Invocation

/-! ## Sessions -/

/-- A program that is being run. -/
structure Session where
  settings : Settings
  /-- Whether a dump is colored. -/
  colored : Bool
  /-- The file that takes the output, instead of the standard output. -/
  outputFile : Option OutputFile
  files : Files
  emulator : Emulator

/-- Whether an event is shown: those of the lowest level only if everything is to be said. -/
def Event.isShown (verbose : Bool) (e : Event) : Bool :=
  verbose || e.level ≠ .debug

/-- The lines of the events that are shown. -/
def Event.lines (verbose : Bool) (events : List Event) : String :=
  String.join ((events.filter (isShown verbose)).map line)

namespace Session

/-- The emulator of a session before it is reset.  Its log starts with the event of the program. -/
def emulatorOf (s : Settings) (p : Program) (input : Input) : Emulator where
  setup :=
    { verbose := s.verbose, logger := .recording, program := p.text, dataLength := s.dataLength,
      options := s.options }
  console := { input := some input, output := some (.buffered (.ofSize Buffer.defaultSize {})) }
  log := #[p.event]

/-- Whether the user does not want colors. -/
def colorsUnwanted (env : Environment) : Bool :=
  (env.lookup "NO_COLOR").any (· ≠ "")

/-- Opens the streams of a program and builds its machine.  A file that takes the output is emptied after the
input was opened, and before it is read.  If the input is that file, the program reads what it has written. -/
def ofProgram (inv : Invocation) (w : Surroundings) (s : Settings) (p : Program) :
    Except Report Session := do
  let log := Event.lines s.verbose [p.event]
  let failed (files : Files) (e : Error) : Report := Report.failed files log e.message
  let _ ← (inv.openInput w).mapError (failed w.files)
  let outputFile ← (inv.openOutput w).mapError (failed w.files)
  let files := match outputFile with
    | some file => w.files.write file.names []
    | none => w.files
  let input ← (inv.openInput { w with files }).mapError (failed files)
  let input := if inv.readsOutput files outputFile then ⟨[], .written 0⟩ else input
  let colored := Dump.colorFor s.color w.terminal (colorsUnwanted w.environment)
  match (emulatorOf s p input).reset with
  | (.ok (), emulator) => return { settings := s, colored, outputFile, files, emulator }
  | (.error e, _) => .error (failed files e)

/-- Runs a session for at most a number of ticks. -/
def runFor (n : Nat) (s : Session) : Session × Option (Outcome Unit) :=
  match s with
  | ⟨settings, colored, outputFile, files, emulator⟩ =>
    (emulator.runFor n).map (⟨settings, colored, outputFile, files, ·⟩) id

/-- What the program has written so far. -/
def written (s : Session) : List UInt8 :=
  match s.emulator.console.output with
  | some out => out.sink.bytes.toList
  | none => []

/-- What the program has written to the standard output so far. -/
def stdout (s : Session) : List UInt8 :=
  if s.outputFile.isNone then s.written else []

/-- The dump of the memory, if one is wanted. -/
def dump (s : Session) : String :=
  match s.emulator.machine with
  | some m => if s.settings.dump then "\n" ++ (Dump.text? s.colored m.snapshot).getD "" else ""
  | none => ""

/-- What was logged and not yet taken away. -/
def logText (s : Session) : String :=
  Event.lines s.settings.verbose s.emulator.log.toList

/-- Takes away what was logged. -/
def takeLog (s : Session) : String × Session :=
  (s.logText, { s with emulator := s.emulator.takeLog.2 })

/-- The exit status after an outcome. -/
def exitOf : Outcome Unit → Nat
  | .ok () => 0
  | .error _ => 1
  | .offTape => 2

/-- What is said at the end about an outcome. -/
def closingLine : Outcome Unit → String
  | .error e => Report.failureLine e.message
  | _ => ""

/-- The report of a session that has come to an end. -/
def finish (s : Session) (outcome : Outcome Unit) : Report where
  exit := exitOf outcome
  stdout := s.stdout ++ Text.encode s.dump
  stderr := s.logText ++ closingLine outcome
  files := match s.outputFile with
    | some file => s.files.write file.names s.written
    | none => s.files

end Session

/-! ## The whole command -/

namespace Command

/-- Starts the command: there is a session to run, or else a report already. -/
def start (libs : Libraries) (arguments : List String) (w : Surroundings) : Except Report Session := do
  let inv ← (Invocation.read arguments).mapError (Report.refused w.files)
  let failed (text : String) : Report := Report.failed w.files "" text
  if 1 < inv.operands.length then
    .error (failed ("Unknown arguments: [" ++ " ".intercalate inv.operands.tail ++ "]"))
  else
    let s ← (inv.settings libs w).mapError fun e => failed e.message
    let p ← (inv.loadProgram libs w).mapError fun e => failed e.message
    Session.ofProgram inv w s p

/-- Runs the command for at most a number of ticks.  There is no report while the program is still
running. -/
def runFor (libs : Libraries) (n : Nat) (arguments : List String) (w : Surroundings) : Option Report :=
  match start libs arguments w with
  | .error report => some report
  | .ok session =>
    match session.runFor n with
    | (session, some outcome) => some (session.finish outcome)
    | (_, none) => none

end Command

end TapeMachine
