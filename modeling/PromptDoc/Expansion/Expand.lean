/-
# PromptDoc.Expansion.Expand — a document as one flat prompt

Expansion asks its `Surroundings` for the workspace root, file contents,
languages and diffs. Each segment is resolved on its own into a text, the calls
it made and the notices it gave (`Resolution`); the prompt is the resolved texts
joined in document order. A failure stays inside its directive: it leaves a
placeholder and one notice.
-/
import PromptDoc.Expansion.Error
import PromptDoc.Expansion.Format
import PromptDoc.Segment.Scan
import PromptDoc.Text.Utf8

namespace PromptDoc

set_option autoImplicit false

/-- How a diff program ended: its exit status, none when a signal ended it, and
what it wrote. -/
structure DiffOutput where
  exitCode : Option Int
  stdout : Text
  stderr : Text
deriving DecidableEq, Repr

namespace DiffOutput

/-- The diff that a program produced. Status 1 means that there are differences,
so it counts as success. -/
def result (o : DiffOutput) : Except ExpandError Text :=
  match o.exitCode with
  | some code =>
    if code = 0 ∨ code = 1 then .ok o.stdout
    else .error (.noDiff (.badStatus code o.stderr))
  | none => .error (.noDiff .killed)

end DiffOutput

/-- What an expansion consults: the workspace root, the files and diffs under a
root, and the language of a path. -/
structure Surroundings where
  root : Option Text
  read : Text → Text → Except ExpandError Bytes
  language : Text → Text
  diff : Text → Option Text → Except ExpandError DiffOutput

/-- A question put to the surroundings. -/
inductive Call where
  | read (root path : Text)
  | diff (root : Text) (branch : Option Text)
deriving DecidableEq, Repr

/-- A failure that is reported to the user. -/
inductive Notice where
  | unreadable (path : Text) (error : ExpandError)
  | noDiff (error : ExpandError)
deriving DecidableEq, Repr

namespace Notice

def message : Notice → Text
  | .unreadable path error =>
    "Failed to read file: ".toList ++ path ++ " (".toList ++ error.message ++ ")".toList
  | .noDiff error => "Failed to get diff: ".toList ++ error.message

end Notice

/-- What became of a part of a document. -/
structure Resolution where
  text : Text
  calls : List Call := []
  notices : List Notice := []

namespace Surroundings

variable (s : Surroundings)

def fileBlock (path : Text) : Except ExpandError Text := do
  let some root := s.root | throw .noWorkspace
  let bytes ← s.read root path
  return Format.fileBlock path (s.language path) (Text.decodeLossy bytes)

def resolvePath (path : Text) : Resolution where
  text := match s.fileBlock path with
    | .ok block => block
    | .error _ => Format.readFailed path
  calls := (s.root.map (.read · path)).toList
  notices := match s.fileBlock path with
    | .ok _ => []
    | .error error => [.unreadable path error]

def diffOutput (branch : Option Text) : Except ExpandError Text := do
  let some root := s.root | throw .noWorkspace
  let output ← s.diff root branch
  output.result

def resolveDiff (branch : Option Text) : Resolution where
  text := match s.diffOutput branch with
    | .ok output => Format.diffBlock output
    | .error _ => Format.diffFailed
  calls := (s.root.map (.diff · branch)).toList
  notices := match s.diffOutput branch with
    | .ok _ => []
    | .error error => [.noDiff error]

/-- Resolves a segment; the files of a context block stand one blank line apart. -/
def resolve : Segment → Resolution
  | .text content => { text := Text.trim content }
  | .note content => { text := Text.trim content }
  | .context paths =>
    let files := paths.map s.resolvePath
    { text := "\n\n".toList.intercalate (files.map (·.text))
      calls := files.flatMap (·.calls)
      notices := files.flatMap (·.notices) }
  | .diff branch => s.resolveDiff branch

def expand (segments : List Segment) : Resolution :=
  let parts := segments.map s.resolve
  { text := Format.joinParts (parts.map (·.text))
    calls := parts.flatMap (·.calls)
    notices := parts.flatMap (·.notices) }

def expandText (tags : TagSet) (t : Text) : Resolution := s.expand (tags.segments t)

end Surroundings

end PromptDoc
