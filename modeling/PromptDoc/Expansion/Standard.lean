/-
# PromptDoc.Expansion.Standard — expanding a document in a workspace

The standard surroundings of an expansion: files are read below the workspace
root, languages and the diff command come from the config, and programs make the
diffs.
-/
import PromptDoc.CommandError
import PromptDoc.Expansion.Language
import PromptDoc.FileTree.Disk
import PromptDoc.Program.Diff

namespace PromptDoc

set_option autoImplicit false

def Disk.readBelow (d : Disk) (root path : Text) : Except ExpandError Bytes :=
  match d.read (Path.join root path) with
  | .ok contents => .ok contents
  | .error .notFound => .error (.fileNotFound path)
  | .error error => .error (.fileUnreadable path error.message)

namespace Surroundings

/-- The surroundings of a workspace whose diffs are made by a command. -/
def standard (d : Disk) (programs : Programs) (c : Config) (command : Command)
    (root : Option Text) : Surroundings where
  root := root
  read := d.readBelow
  language := Language.detect c.normalizedLanguages
  diff := command.diff programs

end Surroundings

def expandDocument (d : Disk) (programs : Programs) (c : Config) (root : Option Text)
    (text : Text) : Except CommandError Resolution := do
  let tags ← c.tagSet.mapError .tags
  let command ← c.diffArgv.mapError .config
  return (Surroundings.standard d programs c command root).expandText tags text

end PromptDoc
