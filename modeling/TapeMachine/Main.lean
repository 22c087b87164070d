import TapeMachine.Bundled
import TapeMachine.Command

/-!
# The program

The outer layer of the command: it looks at the surroundings, runs the session piece by piece, and prints what
there is to print.  Nothing is decided here.
-/

set_option autoImplicit false
namespace TapeMachine.Main

/-- How many bytes are read at a time. -/
def readSize : USize :=
  65536

/-- How many ticks are run before output is printed. -/
def pause : Nat :=
  1000000

/-- Reads an input to its end. -/
partial def readAll (input : IO.FS.Stream) (before : ByteArray) : IO ByteArray := do
  let bytes ← input.read readSize
  if bytes.isEmpty then return before
  readAll input (before ++ bytes)

/-- The number by which the system tells that a directory cannot be read. -/
def directoryCode : UInt32 :=
  21

/-- What stands at a path, if anything does. -/
def entryAt? (path : String) : IO (Option Files.Entry) := do
  try
    return some (.file (← IO.FS.readBinFile path).data.toList)
  catch
    | .inappropriateType _ code _ => return if code = directoryCode then some .directory else none
    | _ => return none

/-- A path and the paths of the directories it leads through. -/
def pathsThrough (path : String) : List String :=
  let names := (path.split (· = '/')).toStringList
  (List.range names.length).map fun i => "/".intercalate (names.take (i + 1))

/-- The files that an invocation may come across. -/
def filesFor (inv : Invocation) : IO Files := do
  let mut entries : Array (String × Files.Entry) := #[]
  for path in [inv.settingsFile, inv.path, inv.input, inv.output] do
    for path in pathsThrough path do
      if let some entry ← entryAt? path then entries := entries.push (path, entry)
  return .ofEntries entries.toList

/-- The variables that are set. -/
def environmentFor (names : List String) : IO Environment := do
  let mut env : Array (String × String) := #[]
  for name in names do
    if let some value ← IO.getEnv name then env := env.push (name, value)
  return env.toList

/-- What the command finds when it is started.  If the arguments cannot be used, nothing is looked at. -/
def surroundingsFor (arguments : List String) : IO Surroundings := do
  match Invocation.read arguments with
  | .error _ => return {}
  | .ok inv =>
    let stdin ← if inv.readsStdin then readAll (← IO.getStdin) .empty else pure .empty
    return {
      environment := ← environmentFor ("NO_COLOR" :: Settings.variableNames.map (·.2))
      stdin := stdin.data.toList
      files := ← filesFor inv
      terminal := ← (← IO.getStdout).isTty }

/-- Prints bytes of which some are printed already. -/
def printFrom (printed : Nat) (bytes : List UInt8) : IO Unit := do
  let stdout ← IO.getStdout
  stdout.write ⟨(bytes.drop printed).toArray⟩
  stdout.flush

/-- Runs a session to its end, and prints what is new after each piece. -/
partial def runSession (session : Session) (printed : Nat) : IO (Session × Outcome Unit × Nat) := do
  match session.runFor pause with
  | (session, some outcome) => return (session, outcome, printed)
  | (session, none) =>
    let (log, session) := session.takeLog
    IO.eprint log
    printFrom printed session.stdout
    runSession session session.stdout.length

/-- Prints what is left of a report, and gives its exit status. -/
def close (report : Report) (printed : Nat) : IO UInt32 := do
  printFrom printed report.stdout
  IO.eprint report.stderr
  return report.exit.toUInt32

/-- Runs the command. -/
def run (arguments : List String) : IO UInt32 := do
  match Command.start .bundled arguments (← surroundingsFor arguments) with
  | .error report => close report 0
  | .ok session =>
    let (session, outcome, printed) ← runSession session 0
    if let some file := session.outputFile then
      IO.FS.writeBinFile file.path ⟨session.written.toArray⟩
    close (session.finish outcome) printed

end TapeMachine.Main

def main (arguments : List String) : IO UInt32 :=
  TapeMachine.Main.run arguments
