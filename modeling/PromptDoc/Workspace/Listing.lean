/-
# PromptDoc.Workspace.Listing — the files that can be put into a prompt

A listing walks the directories below a workspace root, links excepted, and keeps
the regular files that no pattern excludes. Excluded directories are not entered.
Listed paths are relative to the root, shown as texts, written with forward
slashes, and sorted.
-/
import PromptDoc.CommandError
import PromptDoc.Exclude.ExcludeSet
import PromptDoc.Exclude.Gitignore
import PromptDoc.FileTree.Disk

namespace PromptDoc

set_option autoImplicit false

/-- Where a workspace root says what to ignore. -/
def Gitignore.fileName : Text := ".gitignore".toList

/-- The files of a workspace, and the warnings about its exclude patterns. -/
structure Listing where
  files : Except CommandError (List Text)
  warnings : List Warning := []

namespace Listing

/-- The patterns that hold in a workspace root: those of its `.gitignore`, or the
given ones if that cannot be read as a text. -/
def patterns (d : Disk) (root : Text) (otherwise : List Text) : List Text :=
  match d.readText (Path.join root Gitignore.fileName) with
  | .ok text => Gitignore.patterns text
  | .error _ => otherwise

/-- A name as a component of a listed path. -/
def component (name : Text) : Text := ExcludeSet.forwardSlashes (FileName.shown name)

/-- The path of a name in a directory, relative to the root, whose own relative
path is empty. -/
def below (directory name : Text) : Text :=
  match directory with
  | [] => component name
  | directory => directory ++ ['/'] ++ component name

mutual

def kept (excludes : ExcludeSet) (path : Text) : FileTree → List Text
  | .file _ => if excludes.excludesFile path then [] else [path]
  | .link _ => []
  | .directory entries =>
    if excludes.excludesDirectory path then [] else keptIn excludes path entries

def keptIn (excludes : ExcludeSet) (directory : Text) : List (Text × FileTree) → List Text
  | [] => []
  | (name, t) :: entries =>
    kept excludes (below directory name) t ++ keptIn excludes directory entries

end

/-- The listing of a root without what the patterns exclude. -/
def ofRoot (d : Disk) (root : Text) (patterns : List Text) : Listing :=
  match d.node root with
  | .ok (.directory entries) =>
    { warnings := ExcludeSet.warnings patterns
      files := match ExcludeSet.ofPatterns patterns with
        | .ok excludes => .ok (Text.sort (keptIn excludes [] entries))
        | .error defect => .error (.excludesTooDeep defect) }
  | _ => { files := .error (.notListable root) }

end Listing

end PromptDoc
