/-
# PromptDoc.FileTree.AtomicWrite — replacing a file in one step

New contents are written to a hidden file beside the target and synced; one
`rename` then puts them in place. So at every moment the target holds its old
contents or all of the new ones. The directory above the target is made first if
it is not there, and it stays even if a later step fails; the hidden file does
not.
-/
import PromptDoc.CommandError
import PromptDoc.FileTree.Script

namespace PromptDoc

set_option autoImplicit false

namespace AtomicWrite

/-- Takes the answer to the making of a directory: a refusal does not matter if
the directory is there. -/
def settle (path : Text) : Except FileError Bool → Script (Except FileError Unit)
  | .ok _ => return .ok ()
  | .error e => return if ← Script.ask (.isDirectory path) then .ok () else .error e

/-- Makes a directory and, where they are missing, the directories above it.
`depth` bounds how far up it looks; the length of the path is always enough. -/
def makeDirectories : Nat → Text → Script (Except FileError Unit)
  | 0, _ => return .error .noTree
  | depth + 1, path => do
    if path = [] then return .ok ()
    match ← Script.take (.makeDirectory path) with
    | .error .notFound =>
      let some parent := Path.parent? path | return .error .noTree
      match ← makeDirectories depth parent with
      | .error e => return .error e
      | .ok _ => settle path (← Script.take (.makeDirectory path))
    | answer => settle path answer

/-- Makes the directory above a path if it is not there. -/
def prepare (path : Text) : Script (Except CommandError Unit) := do
  match Path.parent? path with
  | none => return .ok ()
  | some [] => return .ok ()
  | some parent =>
    if ← Script.ask (.has parent) then return .ok ()
    return (← makeDirectories (parent.length + 1) parent).mapError (.createDirectory parent)

/-- The name of the hidden file that a process writes to beside a file. -/
def hiddenName (process : Nat) (name : Text) : Text :=
  ['.'] ++ name ++ ['.'] ++ Text.ofNat process ++ ".tmp".toList

/-- The hidden file beside a target that a process writes to; none if the path
does not end in a name. -/
def temporary? (process : Nat) (path : Text) : Option Text := do
  let hidden := hiddenName process (← Path.fileName? path)
  return match Path.parent? path with
    | some parent => Path.join parent hidden
    | none => hidden

/-- Writes new contents to the hidden file, which is taken away again if that
fails. -/
def fill (temporary : Text) (contents : Bytes) : Script (Except CommandError Unit) := do
  match ← Script.take (.create temporary) with
  | .error e => return .error (.createTemporary temporary e)
  | .ok _ =>
    let written ← Script.take (.write temporary contents)
    let synced ← match written with
      | .ok _ => Script.take (.sync temporary)
      | .error e => return ← discard e
    match synced with
    | .ok _ => return .ok ()
    | .error e => discard e
where
  /-- Gives up on the hidden file. -/
  discard (e : FileError) : Script (Except CommandError Unit) := do
    let _ ← Script.take (.remove temporary)
    return .error (.write temporary e)

def install (temporary path : Text) : Script (Except CommandError Unit) := do
  match ← Script.take (.rename temporary path) with
  | .error e =>
    let _ ← Script.take (.remove temporary)
    return .error (.replace path e)
  | .ok _ =>
    if let some parent := Path.parent? path then
      let _ ← Script.take (.sync parent)
    return .ok ()

end AtomicWrite

/-- Gives the file at a path new contents, in one step for everyone who looks.
`process` tells apart the hidden files of processes that write at one time. -/
def atomicWrite (process : Nat) (path : Text) (contents : Bytes) :
    Script (Except CommandError Unit) := do
  match ← AtomicWrite.prepare path with
  | .error e => return .error e
  | .ok _ =>
    match AtomicWrite.temporary? process path with
    | none => return .error (.invalidOutputPath path)
    | some temporary =>
      match ← AtomicWrite.fill temporary contents with
      | .error e => return .error e
      | .ok _ => AtomicWrite.install temporary path

end PromptDoc
