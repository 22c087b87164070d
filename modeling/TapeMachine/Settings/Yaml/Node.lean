import TapeMachine.Settings.Yaml.Token

/-!
# Nodes of YAML

A document is a node: a scalar, or a sequence or mapping of nodes.  Sequences and mappings are written as blocks,
by indentation, or in brackets.  A key without a value, and a value without a key, stand beside an empty
scalar.

Only the first document of a file counts.  Nothing has to follow it; but the reader looks at the next token, so
the file may turn out malformed there.
-/

set_option autoImplicit false
namespace TapeMachine.Yaml

/-- What a document is made of.  The nodes of a mapping are its keys and values in turn. -/
inductive Node where
  | scalar (s : Scalar)
  | sequence (items : List Node)
  | mapping (content : List Node)

/-- The node that stands for nothing. -/
def Node.null : Node :=
  .scalar .empty

namespace Node

/-- Reads nodes from tokens. -/
abbrev Reader : Type → Type :=
  StateT Scanner Option

/-- The next token, which stays. -/
def peek : Reader Token :=
  Scanner.peek

/-- Takes the token that was looked at. -/
def take : Reader Unit :=
  modify Scanner.drop

/-- Whether a token ends an entry of a block mapping. -/
def endsBlockEntry (t : Token) : Bool :=
  t = .key || t = .value || t = .blockEnd

/-- Whether a token ends an item of a sequence in brackets. -/
def endsFlowItem (t : Token) : Bool :=
  t = .flowEntry || t = .flowSequenceEnd

/-- Whether a token ends an entry of a mapping in brackets. -/
def endsFlowEntry (t : Token) : Bool :=
  t = .flowEntry || t = .flowMappingEnd

mutual

/-- A node.  Outside of brackets it may be a block, and where `dashes` are allowed its items may stand as deep as
the block around it. -/
def nodeFor : Nat → (block dashes : Bool) → Reader Node
  | 0, _, _ => failure
  | n + 1, block, dashes => do
    match ← peek with
    | .scalar s =>
      take
      return .scalar s
    | .flowSequence =>
      take
      flowItemsFor n true []
    | .flowMapping =>
      take
      flowEntriesFor n true []
    | .blockEntry => if dashes then dashedItemsFor n [] else failure
    | .blockSequence =>
      take
      if block then blockItemsFor n [] else failure
    | .blockMapping =>
      take
      if block then blockEntriesFor n [] else failure
    | _ => failure

/-- The items of a block, after those before, last one first. -/
def blockItemsFor : Nat → List Node → Reader Node
  | 0, _ => failure
  | n + 1, before => do
    match ← peek with
    | .blockEntry =>
      take
      let t ← peek
      let item ← if t = .blockEntry || t = .blockEnd then pure null else nodeFor n true false
      blockItemsFor n (item :: before)
    | .blockEnd =>
      take
      return .sequence before.reverse
    | _ => failure

/-- The items of a sequence that stands as deep as the block around it. -/
def dashedItemsFor : Nat → List Node → Reader Node
  | 0, _ => failure
  | n + 1, before => do
    match ← peek with
    | .blockEntry =>
      take
      let t ← peek
      let item ← if t = .blockEntry || endsBlockEntry t then pure null else nodeFor n true false
      dashedItemsFor n (item :: before)
    | _ => return .sequence before.reverse

/-- The entries of a block, after those before, last one first. -/
def blockEntriesFor : Nat → List Node → Reader Node
  | 0, _ => failure
  | n + 1, before => do
    match ← peek with
    | .key =>
      take
      let key ← if endsBlockEntry (← peek) then pure null else nodeFor n true true
      let value ← blockValueFor n
      blockEntriesFor n (value :: key :: before)
    | .blockEnd =>
      take
      return .mapping before.reverse
    | _ => failure

/-- The value after a key in a block. -/
def blockValueFor : Nat → Reader Node
  | 0 => failure
  | n + 1 => do
    match ← peek with
    | .value =>
      take
      if endsBlockEntry (← peek) then return null else nodeFor n true true
    | _ => return null

/-- The items of a sequence in brackets.  An item with a colon is a mapping of one entry. -/
def flowItemsFor : Nat → (first : Bool) → List Node → Reader Node
  | 0, _, _ => failure
  | n + 1, first, before => do
    let t ← peek
    if t = .flowSequenceEnd then
      take
      return .sequence before.reverse
    if !first then
      if t = .flowEntry then take else failure
    match ← peek with
    | .key =>
      take
      let pair ← flowPairFor n
      flowItemsFor n false (pair :: before)
    | .flowSequenceEnd =>
      take
      return .sequence before.reverse
    | _ =>
      let item ← nodeFor n false false
      flowItemsFor n false (item :: before)

/-- A mapping of one entry inside a sequence.  What stands in place of a missing key is skipped. -/
def flowPairFor : Nat → Reader Node
  | 0 => failure
  | n + 1 => do
    let t ← peek
    let key ← if t = .value || endsFlowItem t then (do take; pure null) else nodeFor n false false
    match ← peek with
    | .value =>
      take
      let value ← if endsFlowItem (← peek) then pure null else nodeFor n false false
      return .mapping [key, value]
    | _ => return .mapping [key, null]

/-- The entries of a mapping in brackets. -/
def flowEntriesFor : Nat → (first : Bool) → List Node → Reader Node
  | 0, _, _ => failure
  | n + 1, first, before => do
    let t ← peek
    if t = .flowMappingEnd then
      take
      return .mapping before.reverse
    if !first then
      if t = .flowEntry then take else failure
    match ← peek with
    | .key =>
      take
      let t ← peek
      let key ← if t = .value || endsFlowEntry t then pure null else nodeFor n false false
      let value ← flowValueFor n
      flowEntriesFor n false (value :: key :: before)
    | .flowMappingEnd =>
      take
      return .mapping before.reverse
    | _ =>
      let key ← nodeFor n false false
      flowEntriesFor n false (null :: key :: before)

/-- The value after a key in brackets. -/
def flowValueFor : Nat → Reader Node
  | 0 => failure
  | n + 1 => do
    match ← peek with
    | .value =>
      take
      if endsFlowEntry (← peek) then return null else nodeFor n false false
    | _ => return null

end

/-- The first document of a file.  It stands for nothing if there is none. -/
def document (bound : Nat) : Reader Node := do
  match ← peek with
  | .streamEnd => return null
  | .documentStart =>
    take
    let t ← peek
    let root ←
      if t = .documentStart || t = .documentEnd || t = .streamEnd then pure null
      else nodeFor bound true false
    let _ ← peek
    return root
  | _ =>
    let root ← nodeFor bound true false
    let _ ← peek
    return root

/-- Reads the first document of a file. -/
def ofFile? (file : List UInt8) : Option Node :=
  let scanner := Scanner.ofInput (Input.ofFile file)
  ((document (8 * (file.length + 8))).run scanner).map (·.1)

end Node

end TapeMachine.Yaml
