/-
# PromptDoc.FileTree.Basic — directories, files and links as a tree

A `FileTree` is a regular file, a directory or a symbolic link. A location is
the list of names that leads from the root to a node, without following links;
`get?` looks a location up and `set` puts a node there or takes it away. Since it
is a tree, a file has one name: there are no hard links.

What a name is made of are bytes (`FileName`). Where these are UTF-8, the name is
their text. Any other name is a slash with the bytes behind it, one character for
each, so that no path can hold it: a slash is in no component.
-/
import PromptDoc.Text.Utf8

namespace PromptDoc

set_option autoImplicit false

namespace FileName

/-- The bytes of a name: those of the text, or the ones that stand behind a slash. -/
def bytes : Text → Bytes
  | '/' :: c :: cs => (c :: cs).map fun c => UInt8.ofNat c.toNat
  | name => Text.encode name

/-- The name that bytes make. -/
def ofBytes (bytes : Bytes) : Text :=
  match Text.decode? bytes with
  | some name => name
  | none => '/' :: bytes.map fun b => Char.ofNat b.toNat

/-- A name as it is shown, with U+FFFD for what is no UTF-8. -/
def shown (name : Text) : Text := Text.decodeLossy (bytes name)

end FileName

/-- What a file system holds. -/
inductive FileTree where
  | file (contents : Bytes)
  | directory (entries : List (Text × FileTree))
  | link (target : Text)

/-- The names that lead from the root to a node. -/
abbrev Location := List Text

namespace FileTree

def isDirectory : FileTree → Bool
  | .directory _ => true
  | _ => false

def isFile : FileTree → Bool
  | .file _ => true
  | _ => false

def child? (name : Text) (entries : List (Text × FileTree)) : Option FileTree :=
  (entries.find? (·.1 = name)).map (·.2)

/-- The entries with a name set to a node, or without it. -/
def setChild (name : Text) : Option FileTree → List (Text × FileTree) → List (Text × FileTree)
  | none, entries => entries.filter (·.1 ≠ name)
  | some node, [] => [(name, node)]
  | some node, entry :: entries =>
    if entry.1 = name then (name, node) :: entries
    else entry :: setChild name (some node) entries

def get? : FileTree → Location → Option FileTree
  | t, [] => some t
  | .directory entries, name :: names =>
    match child? name entries with
    | some t => get? t names
    | none => none
  | _, _ :: _ => none

/-- The tree with a node put at a location, or taken from it. Nothing changes
where no directory holds the location. -/
def set (node : Option FileTree) : Location → FileTree → FileTree
  | [], t => t
  | [name], .directory entries => .directory (setChild name node entries)
  | name :: names, .directory entries =>
    match child? name entries with
    | some t => .directory (setChild name (some (set node names t)) entries)
    | none => .directory entries
  | _, t => t

end FileTree

end PromptDoc
