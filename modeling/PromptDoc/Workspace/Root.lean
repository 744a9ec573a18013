/-
# PromptDoc.Workspace.Root — where a workspace begins

The workspace root is the directory that the user names; else the root of the
repository around the current directory; else the current directory.
-/
import PromptDoc.FileTree.Disk
import PromptDoc.Program.Git

namespace PromptDoc

set_option autoImplicit false

namespace Workspace

/-- The workspace root as seen from a directory. -/
def root (d : Disk) (programs : Programs) (named : Option Text) (directory : Text) :
    Except CommandError Text :=
  match named with
  | some path =>
    let path := Path.join directory path
    if d.isDirectory path then .ok path else .error (.rootNotDirectory path)
  | none =>
    match programs.repositoryRoot directory with
    | .ok path => .ok path
    | .error _ => .ok directory

end Workspace

end PromptDoc
