import TapeMachine.Error

/-!
# Files

A small file system, as a value: the files and directories a command may come across.  Paths are resolved one
name at a time, as usual: an empty name and `.` stay where they are, `..` goes up, and only a directory can
be gone through.

The names that lead to an entry start at the working directory, at a directory above it, with one `..` for
each step up, or at the root, with `/` for the first name.  All of these directories are there.
-/

set_option autoImplicit false
namespace TapeMachine

/-- What a name leads to. -/
inductive Files.Entry where
  | file (bytes : List UInt8)
  | directory
  deriving DecidableEq, Repr

/-- Files and directories, by the names that lead to them.  The directories on the way to an entry need not be
listed. -/
structure Files where
  entries : List (List String × Files.Entry) := []
  deriving DecidableEq, Repr

namespace Files

/-- What a path leads to, with the names it comes down to. -/
inductive Place where
  | directory
  | file (names : List String) (bytes : List UInt8)
  /-- The last name leads nowhere yet. -/
  | absent (names : List String)
  /-- The last name leads nowhere, and the path demands a directory. -/
  | absentDirectory
  deriving DecidableEq, Repr

/-- The names that lead to the root. -/
def root : List String :=
  ["/"]

/-- Whether names lead to the working directory, above it, or to the root. -/
def isAnchor (names : List String) : Bool :=
  names = root || names.all (· = "..")

/-- Where a step up leads. -/
def parent (names : List String) : List String :=
  if names = root then root
  else if isAnchor names then names ++ [".."]
  else names.dropLast

/-- The entry that some names lead to. -/
def entry? (fs : Files) (names : List String) : Option Entry :=
  if isAnchor names then some .directory
  else
    match fs.entries.lookup names with
    | some e => some e
    | none =>
      if fs.entries.any fun e => names.isPrefixOf e.1 then some .directory else none

/-- The longest name a directory can hold, in bytes. -/
def nameLimit : Nat :=
  255

/-- The length from which on a path is too long, in bytes. -/
def pathLimit : Nat :=
  4096

/-- Follows names from a directory on. -/
def walk (fs : Files) (here : List String) : List String → Except FileFault Place
  | [] => .ok .directory
  | name :: rest =>
    if name = "" ∨ name = "." then fs.walk here rest
    else if name = ".." then fs.walk (parent here) rest
    else if nameLimit < name.utf8ByteSize then .error .nameTooLong
    else
      let there := here ++ [name]
      match fs.entry? there, rest with
      | some .directory, rest => fs.walk there rest
      | some (.file bytes), [] => .ok (.file there bytes)
      | some (.file _), _ => .error .notDirectory
      | none, [] => .ok (.absent there)
      | none, rest => if rest.all (· = "") then .ok .absentDirectory else .error .missing

/-- What a path leads to. -/
def resolve (fs : Files) (path : String) : Except FileFault Place :=
  let names := (path.split (· = '/')).toStringList
  if path = "" then .error .missing
  else if path.toList.contains '\x00' then .error .invalidName
  else if pathLimit ≤ path.utf8ByteSize then .error .nameTooLong
  else
    match names with
    | "" :: names => fs.walk root names
    | names => fs.walk [] names

/-- Opens a path for reading.  A directory can be opened, but then not read. -/
def openInput (fs : Files) (path : String) : Except Error (Except Error (List UInt8)) :=
  match fs.resolve path with
  | .ok (.file _ bytes) => .ok (.ok bytes)
  | .ok .directory => .ok (.error (.file .read path .isDirectory))
  | .ok (.absent _) | .ok .absentDirectory => .error (.file .open path .missing)
  | .error e => .error (.file .open path e)

/-- The contents of a file. -/
def read (fs : Files) (path : String) : Except Error (List UInt8) :=
  match fs.openInput path with
  | .ok contents => contents
  | .error e => .error e

/-- Opens a path for writing: the names of the file, which is to be empty. -/
def openOutput (fs : Files) (path : String) : Except Error (List String) :=
  match fs.resolve path with
  | .ok (.file names _) | .ok (.absent names) => .ok names
  | .ok .directory | .ok .absentDirectory => .error (.file .open path .isDirectory)
  | .error e => .error (.file .open path e)

/-- Replaces the contents of a file, which need not exist before. -/
def write (fs : Files) (names : List String) (bytes : List UInt8) : Files :=
  ⟨(names, .file bytes) :: fs.entries.filter fun e => e.1 ≠ names⟩

/-- The names in a path that leads through directories only. -/
def namesFrom (here : List String) : List String → List String
  | [] => here
  | name :: rest =>
    if name = "" ∨ name = "." then namesFrom here rest
    else if name = ".." then namesFrom (parent here) rest
    else namesFrom (here ++ [name]) rest

/-- The names that a path comes down to. -/
def namesOf (path : String) : List String :=
  match (path.split (· = '/')).toStringList with
  | "" :: names => namesFrom root names
  | names => namesFrom [] names

/-- The files and directories with some paths. -/
def ofEntries (entries : List (String × Entry)) : Files :=
  ⟨entries.map fun e => (namesOf e.1, e.2)⟩

end Files

/-- The extension of a path: what its last name has from its last dot on. -/
def extension (path : String) : String :=
  let name := path.toList.reverse.takeWhile (· ≠ '/')
  if name.contains '.' then String.ofList ('.' :: (name.takeWhile (· ≠ '.')).reverse) else ""

end TapeMachine
