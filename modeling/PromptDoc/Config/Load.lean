/-
# PromptDoc.Config.Load — the settings of a workspace

Settings that are read are validated. A workspace without a settings file has the
standard settings.
-/
import PromptDoc.CommandError
import PromptDoc.Config.Settings
import PromptDoc.FileTree.Disk

namespace PromptDoc.Config

set_option autoImplicit false

def parse (text : Text) : Except CommandError Config := do
  let some c := ofYaml? text | throw .malformedConfig
  c.validate.mapError .config
  return c

def load (d : Disk) (path : Text) : Except CommandError Config := do
  parse (← (d.readText path).mapError (.configUnreadable path))

/-- Where a workspace root keeps its settings. -/
def fileName : Text := ".promptbuddy.yaml".toList

def ofWorkspace (d : Disk) (root : Text) : Except CommandError Config :=
  let path := Path.join root fileName
  if d.isFile path then load d path else .ok {}

end PromptDoc.Config
