/-!
# What a TOML file defines

A file defines values and tables under keys of several parts.  A table is opened by its own line, or it comes about
because its name stands before a point in the name of something else; such a table is implicit, and may be
opened once.  A key can be defined only once, unless it is defined as an array: what is an array, or becomes one,
may be defined again.

The tables of an array of tables have one name; whatever is defined under it belongs to the last one.  So
definitions are a flat list from keys to what they stand for.
-/

set_option autoImplicit false
namespace TapeMachine.Toml

/-- What a key stands for.  Of values that no setting can take, nothing is kept. -/
inductive Value where
  | int (n : Int)
  | bool (b : Bool)
  | text (s : String)
  | array
  | other
  | table
  /-- Tables under one name. -/
  | tables
  deriving DecidableEq, Repr

/-- What was defined so far, and the table that is being defined. -/
structure Document where
  entries : List (List String × Value) := []
  /-- The keys that were last defined as arrays. -/
  arrays : List (List String) := []
  /-- The tables that came about by the names of others. -/
  implicit : List (List String) := []
  context : List String := []

namespace Document

/-- What a key stands for. -/
def get? (d : Document) (key : List String) : Option Value :=
  d.entries.lookup key

/-- Lets a key stand for something. -/
def put (d : Document) (key : List String) (v : Value) : Document :=
  { d with entries := (key, v) :: d.entries.filter fun e => e.1 ≠ key }

/-- Forgets what was defined under a key. -/
def clearUnder (d : Document) (key : List String) : Document :=
  { d with entries := d.entries.filter fun e => e.1 = key || !key.isPrefixOf e.1 }

/-- Marks a table as implicit. -/
def addImplicit (d : Document) (key : List String) : Document :=
  { d with implicit := key :: d.implicit }

/-- Makes a table one that was opened. -/
def removeImplicit (d : Document) (key : List String) : Document :=
  { d with implicit := d.implicit.filter (· ≠ key) }

/-- The keys of all tables on the way to something under a key, the key included. -/
def pathsTo (key : List String) : List (List String) :=
  (List.range key.length).map fun i => key.take (i + 1)

/-- Whether something can be defined under a key. -/
def isOpen (d : Document) (key : List String) : Bool :=
  match d.get? key with
  | some .table | some .tables => true
  | _ => false

/-- Records whether a key of the current table is an array.  The empty key stands for the table itself. -/
def record (d : Document) (key : String) (isArray : Bool) : Document :=
  let path :=
    if key ≠ "" then d.context ++ [key] else if d.context.isEmpty then [""] else d.context
  let others := d.arrays.filter (· ≠ path)
  { d with arrays := if isArray then path :: others else others }

/-- Defines a key in a table.  A new table takes the place of all that was defined under its key. -/
def define? (d : Document) (table : List String) (key : String) (v : Value) (isNew : Bool) :
    Option Document :=
  let path := table ++ [key]
  if !(pathsTo table).all d.isOpen then none
  else if (d.get? path).isNone then some (d.put path v)
  else if d.arrays.contains path then
    let d := (d.removeImplicit path).put path v
    some (if isNew then d.clearUnder path else d)
  else if d.implicit.contains path then some (d.removeImplicit path)
  else none

/-- Makes sure that there are tables under all of some keys, each of which extends the one before. -/
def ensureTables? : Document → List (List String) → Option Document
  | d, [] => some d
  | d, key :: keys =>
    if d.isOpen key then d.ensureTables? keys
    else if (d.get? key).isSome then none
    else ((d.addImplicit key).put key .table).ensureTables? keys

/-- Opens a table, or the next one of an array of tables. -/
def openTable? (d : Document) (key : List String) (inArray : Bool) : Option Document := do
  let d ← d.ensureTables? (pathsTo key.dropLast)
  let d ←
    if inArray then
      match d.get? key with
      | none => some (d.put key .tables)
      | some .tables => some (d.clearUnder key)
      | some _ => none
    else d.define? key.dropLast (key.getLastD "") .table true
  return { d with context := key }

/-- Opens the tables that the parts of a key but the last one name, each inside the one before. -/
def openParts? : Document → List String → Option Document
  | d, part :: next :: parts => do
    let key := d.context ++ [part]
    let d ← (d.addImplicit key).openTable? key false
    d.openParts? (next :: parts)
  | d, _ => some d

end Document

end TapeMachine.Toml
