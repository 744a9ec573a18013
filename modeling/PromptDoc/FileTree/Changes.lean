/-
# PromptDoc.FileTree.Changes — what differs between two trees

A tree is laid out flat: each directory and each regular file with its path, a
directory's path ending in a slash. Links are left out.
-/
import PromptDoc.FileTree.Basic

namespace PromptDoc

set_option autoImplicit false

namespace FileTree

mutual

/-- The directories and files in what stands at a path. -/
def flatten (path : Text) : FileTree → List (Text × Bytes)
  | .file contents => [(path, contents)]
  | .link _ => []
  | .directory entries => (path ++ ['/'], []) :: flattenIn (path ++ ['/']) entries

def flattenIn (above : Text) : List (Text × FileTree) → List (Text × Bytes)
  | [] => []
  | (name, t) :: entries => flatten (above ++ name) t ++ flattenIn above entries

end

/-- The directories and files in a tree, the tree itself left out. -/
def layout : FileTree → List (Text × Bytes)
  | .directory entries => flattenIn [] entries
  | _ => []

/-- What is new or different in the second tree, with its contents, and what of
the first tree is gone. -/
def changes (before after : FileTree) : List (Text × Option Bytes) :=
  let old := before.layout
  let new := after.layout
  (new.filter fun entry => old.lookup entry.1 != some entry.2).map (fun (p, c) => (p, some c)) ++
    (old.filter fun entry => (new.lookup entry.1).isNone).map fun (p, _) => (p, none)

/-- The tree with a node planted at a location, in directories that are made where
they are missing. What stands in the way is left as it is. -/
def plant (node : FileTree) : Location → FileTree → FileTree
  | [], _ => node
  | name :: names, .directory entries =>
    let inner := (child? name entries).getD (.directory [])
    .directory (setChild name (some (plant node names inner)) entries)
  | _ :: _, t => t

end FileTree

end PromptDoc
