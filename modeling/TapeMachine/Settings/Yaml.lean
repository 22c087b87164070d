import TapeMachine.Settings.Yaml.Node

/-!
# The bundled decoder for YAML

The first document of a file has to be a mapping, or to stand for nothing.  Its keys have to match the names of
the fields exactly, and other keys do not count.

If the text is malformed, if a key stands twice, or if the document is no mapping, then nothing of it counts.  A
value of the wrong type counts against its own field only, and one that stands for nothing leaves its field
alone.  A mapping may name another one, or several, for the fields it does not mention itself.

Tags, anchors, aliases, directives and texts in blocks are not known here: a file with one of them is refused.
-/

set_option autoImplicit false
namespace TapeMachine.Yaml

/-- How fields are read from nodes. -/
def fieldReader : FieldReader Node where
  int
    | .scalar s => s.int?
    | _ => none
  bool
    | .scalar s => s.bool?
    | _ => none
  text
    | .scalar s => some s.text
    | _ => none

/-- Whether a node stands for nothing. -/
def Node.isNull : Node → Bool
  | .scalar s => s.isNull
  | _ => false

/-- What two keys must not have in common: the kind of node, and the text. -/
def Node.label : Node → Nat × String
  | .scalar s => (0, s.text)
  | .sequence _ => (1, "")
  | .mapping _ => (2, "")

/-- The keys among the nodes of a mapping. -/
def keysOf : List Node → List Node
  | k :: _ :: rest => k :: keysOf rest
  | _ => []

/-- Whether no label stands twice in a list. -/
def allDistinct : List (Nat × String) → Bool
  | [] => true
  | l :: rest => !rest.contains l && allDistinct rest

/-- Whether a key asks for the entries of another mapping. -/
def Node.isMerge : Node → Bool
  | .scalar s => !s.quoted && s.text = "<<"
  | _ => false

/-- What an entry of a mapping has to say about its field: the assignment, or that the key or the value is of the
wrong type.  Fields that were mentioned before are left alone. -/
def entryChange? (spelling : Field → String) (mentioned : List String) (key value : Node) :
    Option (Option Setting) :=
  match key with
  | .scalar s =>
    if mentioned.contains s.text || value.isNull then none
    else (Field.spelt? spelling s.text).map fun f => fieldReader.read? f value
  | _ => some none

/-- What the entries of a mapping have to say about their fields. -/
def entryChanges (spelling : Field → String) (mentioned : List String) : List Node → List (Option Setting)
  | k :: v :: rest =>
    let others := entryChanges spelling mentioned rest
    if k.isMerge || k.isNull then others
    else
      match entryChange? spelling mentioned k v with
      | some c => c :: others
      | none => others
  | _ => []

/-- The fields that the keys of a mapping mention. -/
def mentionedIn (content : List Node) : List String :=
  (keysOf content).filterMap fun
    | .scalar s => some s.text
    | _ => none

mutual

/-- What a node has to say whose entries are asked for, and all fields that are mentioned then. -/
def mergedChanges (spelling : Field → String) (mentioned : List String) :
    Node → List (Option Setting) × List String
  | .mapping content =>
    if allDistinct ((keysOf content).map Node.label) then
      let own := entryChanges spelling mentioned content
      let (asked, mentioned) := askedChanges spelling (mentionedIn content ++ mentioned) content
      (own ++ asked, mentioned)
    else ([none], mentioned)
  | .sequence items => allMergedChanges spelling mentioned items
  | .scalar _ => ([none], mentioned)

/-- What several mappings have to say.  A node that is no mapping ends them. -/
def allMergedChanges (spelling : Field → String) (mentioned : List String) :
    List Node → List (Option Setting) × List String
  | .mapping content :: rest =>
    let (changes, mentioned) := mergedChanges spelling mentioned (.mapping content)
    let (others, mentioned) := allMergedChanges spelling mentioned rest
    (changes ++ others, mentioned)
  | [] => ([], mentioned)
  | _ => ([none], mentioned)

/-- What the mapping has to say that is asked for among some entries. -/
def askedChanges (spelling : Field → String) (mentioned : List String) :
    List Node → List (Option Setting) × List String
  | k :: v :: rest =>
    if k.isMerge then mergedChanges spelling mentioned v else askedChanges spelling mentioned rest
  | _ => ([], mentioned)

end

/-- What a file has to say about the fields, if it can be read.  A value of the wrong type gives no
assignment. -/
def changes? (spelling : Field → String) (file : List UInt8) : Option (List (Option Setting)) := do
  match ← Node.ofFile? file with
  | .mapping content =>
    guard (allDistinct ((keysOf content).map Node.label))
    return (mergedChanges spelling [] (.mapping content)).1
  | node => if node.isNull then some [] else none

/-- Carries out the assignments of a file, as far as there are any. -/
def decode (spelling : Field → String) (file : List UInt8) (s : Settings) : Settings × Option Error :=
  match changes? spelling file with
  | some changes =>
    (s.assignAll (changes.filterMap id), if changes.all Option.isSome then none else some .malformed)
  | none => (s, some .malformed)

end TapeMachine.Yaml
