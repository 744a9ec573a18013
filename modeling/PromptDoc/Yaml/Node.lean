/-
# PromptDoc.Yaml.Node — a YAML document as a tree

A document is a tree of scalars, sequences, mappings and aliases. `Node.ofText?`
reads the one document of a stream; a stream of blanks and comments has none.
It is `none` for a stream that cannot be read or that holds more than one
document.

An anchor gets a number when it is read: the number of names known before it. So
a name that is given again takes the number that the next new name will also
take, and of two nodes under one number the one that begins later stands.
-/
import PromptDoc.Yaml.Token

namespace PromptDoc.Yaml

set_option autoImplicit false

/-- A node of a document. -/
inductive Node where
  | scalar (text : Text) (plain : Bool)
  | sequence (items : List Node)
  | mapping (entries : List (Node × Node))
  | alias (anchor : Nat)

namespace Node

/-- An empty plain scalar: what stands where nothing is written. -/
def empty : Node := .scalar [] true

end Node

/-- A node under an anchor, with how many anchored nodes began before it. -/
structure Anchored where
  anchor : Nat
  order : Nat
  node : Node

structure Composer where
  tokens : List Token
  /-- The tag handles that directives have introduced, with the two standard ones. -/
  handles : List Text := [['!'], ['!', '!']]
  /-- The names of anchors with their numbers. -/
  names : List (Text × Nat) := []
  /-- How many anchored nodes have begun. -/
  begun : Nat := 0
  anchored : List Anchored := []

/-- A step of reading, which fails on a malformed document. -/
abbrev Compose := StateT Composer Option

namespace Compose

def peek : Compose Token := do return (← get).tokens.head?.getD .streamEnd

def advance : Compose Unit := modify fun s => { s with tokens := s.tokens.drop 1 }

/-- Leaves the next token behind if it is the given one, and says whether it was. -/
def accept (t : Token) : Compose Bool := do
  if (← peek) = t then advance; return true
  return false

def register (name : Text) : Compose (Nat × Nat) := do
  let s ← get
  let number := s.names.length
  let names := (s.names.filter (·.1 ≠ name)) ++ [(name, number)]
  set { s with names, begun := s.begun + 1 }
  return (number, s.begun)

def note (anchor : Option (Nat × Nat)) (node : Node) : Compose Node := do
  if let some (anchor, order) := anchor then
    modify fun s => { s with anchored := ⟨anchor, order, node⟩ :: s.anchored }
  return node

/-- The anchor and the tag in front of a node, in either order: the anchor's name,
and whether there is either. -/
def properties : Compose (Option Text × Bool) := do
  let tag (handle : Text) : Compose Unit := do
    if handle ≠ [] && !(← get).handles.contains handle then failure
    advance
  match ← peek with
  | .anchor name =>
    advance
    if let .tag handle ← peek then tag handle
    return (some name, true)
  | .tag handle =>
    tag handle
    if let .anchor name ← peek then
      advance
      return (some name, true)
    return (none, true)
  | _ => return (none, false)

/-- Whether a token ends the contents of an entry. -/
def isOneOf (ends : List Token) : Compose Bool := do return ends.contains (← peek)

mutual

/-- A node. Blocks are allowed if `block`, and a sequence at the indentation of
its key if `indentless`. -/
def node (block indentless : Bool) : Nat → Compose Node
  | 0 => failure
  | fuel + 1 => do
    if let .alias name ← peek then
      advance
      match (← get).names.find? (·.1 = name) with
      | some (_, number) => return .alias number
      | none => failure
    let (name, decorated) ← properties
    let here ← peek
    let anchor ← match name with
      | some name => some <$> register name
      | none => pure none
    match here with
    | .scalar text plain => advance; note anchor (.scalar text plain)
    | .flowSequenceStart => advance; note anchor (.sequence (← flowItems true fuel))
    | .flowMappingStart => advance; note anchor (.mapping (← flowEntries true fuel))
    | .blockSequenceStart =>
      if block then
        advance
        note anchor (.sequence (← blockItems fuel))
      else if decorated then note anchor .empty else failure
    | .blockMappingStart =>
      if block then
        advance
        note anchor (.mapping (← blockEntries fuel))
      else if decorated then note anchor .empty else failure
    | .blockEntry =>
      if indentless then note anchor (.sequence (← indentlessItems fuel))
      else if decorated then note anchor .empty else failure
    | _ => if decorated then note anchor .empty else failure

def blockItems : Nat → Compose (List Node)
  | 0 => failure
  | fuel + 1 => do
    if ← accept .blockEnd then return []
    if !(← accept .blockEntry) then failure
    let item ← if ← isOneOf [.blockEntry, .blockEnd] then pure .empty else node true false fuel
    return item :: (← blockItems fuel)

/-- The items of a sequence that is not indented. -/
def indentlessItems : Nat → Compose (List Node)
  | 0 => failure
  | fuel + 1 => do
    if !(← accept .blockEntry) then return []
    let item ← if ← isOneOf [.blockEntry, .key, .value, .blockEnd] then pure .empty
      else node true false fuel
    return item :: (← indentlessItems fuel)

def blockEntries : Nat → Compose (List (Node × Node))
  | 0 => failure
  | fuel + 1 => do
    if ← accept .blockEnd then return []
    if !(← accept .key) then failure
    let ends := [.key, .value, .blockEnd]
    let key ← if ← isOneOf ends then pure .empty else node true true fuel
    let value ←
      if ← accept .value then
        if ← isOneOf ends then pure .empty else node true true fuel
      else pure .empty
    return (key, value) :: (← blockEntries fuel)

/-- The items of a sequence in brackets, up to its end. A pair among them is a
mapping of its own. -/
def flowItems (first : Bool) : Nat → Compose (List Node)
  | 0 => failure
  | fuel + 1 => do
    if ← accept .flowSequenceEnd then return []
    if !first then
      if !(← accept .flowEntry) then failure
    if ← accept .key then
      let key ←
        if ← isOneOf [.value, .flowEntry, .flowSequenceEnd] then
          advance
          pure .empty
        else node false false fuel
      let value ←
        if ← accept .value then
          if ← isOneOf [.flowEntry, .flowSequenceEnd] then pure .empty
          else node false false fuel
        else pure .empty
      return .mapping [(key, value)] :: (← flowItems false fuel)
    else if ← accept .flowSequenceEnd then return []
    else
      let item ← node false false fuel
      return item :: (← flowItems false fuel)

def flowEntries (first : Bool) : Nat → Compose (List (Node × Node))
  | 0 => failure
  | fuel + 1 => do
    if ← accept .flowMappingEnd then return []
    if !first then
      if !(← accept .flowEntry) then failure
    if ← accept .key then
      let key ← if ← isOneOf [.value, .flowEntry, .flowMappingEnd] then pure .empty
        else node false false fuel
      let value ←
        if ← accept .value then
          if ← isOneOf [.flowEntry, .flowMappingEnd] then pure .empty
          else node false false fuel
        else pure .empty
      return (key, value) :: (← flowEntries false fuel)
    else if ← accept .flowMappingEnd then return []
    else
      let key ← node false false fuel
      return (key, .empty) :: (← flowEntries false fuel)

end

/-- The directives before a document: a version at most once, and each tag handle
at most once. -/
def directives (versionSeen : Bool) (handles : List Text) : Nat → Compose Unit
  | 0 => failure
  | fuel + 1 => do
    match ← peek with
    | .version major minor =>
      if versionSeen || major ≠ 1 || (minor ≠ 1 && minor ≠ 2) then failure
      advance
      directives true handles fuel
    | .tagHandle handle =>
      if handles.contains handle then failure
      advance
      modify fun s => { s with handles := handle :: s.handles }
      directives versionSeen (handle :: handles) fuel
    | _ => return ()

def endMarks : Nat → Compose Unit
  | 0 => return ()
  | fuel + 1 => do if ← accept .documentEnd then endMarks fuel

/-- The one document of a stream, if it holds any. -/
def document (fuel : Nat) : Compose (Option Node) := do
  let root ← match ← peek with
    | .streamEnd => pure none
    | .version .. | .tagHandle .. | .documentStart =>
      directives false [] fuel
      if !(← accept .documentStart) then failure
      match ← peek with
      | .version .. | .tagHandle .. | .documentStart | .documentEnd | .streamEnd =>
        pure (some .empty)
      | _ => some <$> node true false fuel
    | _ => some <$> node true false fuel
  endMarks fuel
  if (← peek) ≠ .streamEnd then failure
  return root

end Compose

structure Tree where
  root : Node
  anchored : List Anchored

namespace Tree

/-- The node that stands for another: itself, or the target of an alias. -/
def resolve? (t : Tree) : Node → Option Node
  | .alias anchor =>
    let found := t.anchored.filter fun a => a.anchor = anchor
    (found.foldl (fun best a =>
      match best with
      | some (b : Anchored) => if b.order < a.order then some a else some b
      | none => some a) none).map (·.node)
  | node => some node

def text? (t : Tree) (node : Node) : Option Text :=
  match t.resolve? node with
  | some (.scalar text _) => some text
  | _ => none

/-- The items of a sequence; nothing written counts as none. -/
def items? (t : Tree) (node : Node) : Option (List Node) :=
  match t.resolve? node with
  | some (.sequence items) => some items
  | some (.scalar [] true) => some []
  | _ => none

/-- The entries of a mapping; nothing written counts as none. -/
def entries? (t : Tree) (node : Node) : Option (List (Node × Node)) :=
  match t.resolve? node with
  | some (.mapping entries) => some entries
  | some (.scalar [] true) => some []
  | _ => none

/-- The document of a stream. A stream without one counts as an empty scalar. -/
def ofText? (t : Text) : Option Tree := do
  let tokens ← Token.ofText? t
  let fuel := 2 * tokens.length + 2
  let (root, s) ← (Compose.document fuel).run { tokens }
  return ⟨root.getD .empty, s.anchored⟩

end Tree

end PromptDoc.Yaml
