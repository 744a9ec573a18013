/-
# PromptDoc.CommandLine.Run — what the commands do

A command runs in a `Session`: the workspace root and its config. Its `Outcome`
is what it prints, what it tells the user beside that, the disk it leaves, and an
error if it stops early. Only a document that changes is written.
-/
import PromptDoc.CommandLine.Request
import PromptDoc.Config.Load
import PromptDoc.Document.Versioned
import PromptDoc.Expansion.Standard
import PromptDoc.FileTree.AtomicWrite
import PromptDoc.Segment.Table
import PromptDoc.Workspace.Listing
import PromptDoc.Workspace.Root

namespace PromptDoc

set_option autoImplicit false

namespace CommandLine

/-- What commands run in and on. -/
structure Machine where
  disk : Disk
  programs : Programs
  stdin : Bytes := []
  /-- The number of the running process. -/
  process : Nat := 1
  /-- The documents that the disk does not let be read. -/
  unreadable : Text → Option FileError := fun _ => none
  /-- The steps of a write that the disk refuses. -/
  refusals : Refusals := fun _ _ => none

/-- What a command leaves. -/
structure Outcome where
  disk : Disk
  error : Option CommandError := none
  stdout : Text := []
  /-- The lines on standard error. -/
  notes : List Text := []
  warnings : List Warning := []

structure Session where
  root : Text
  config : Config

namespace Machine

def directory (m : Machine) : Text := Disk.pathOf m.disk.workingDirectory

def session (m : Machine) (root : Option Text) : Except CommandError Session := do
  let root ← Workspace.root m.disk m.programs root m.directory
  return { root, config := ← Config.ofWorkspace m.disk root }

/-- The text of a file, whatever its bytes are. -/
def readFile (m : Machine) (path : Text) : Except CommandError Text :=
  match m.unreadable path with
  | some error => .error (.documentUnreadable path error)
  | none =>
    match m.disk.read path with
    | .ok contents => .ok (Text.decodeLossy contents)
    | .error error => .error (.documentUnreadable path error)

/-- Whether a path stands for standard input: its one component is a hyphen. -/
def isInput (path : Text) : Bool :=
  Path.baseLength path = 0 && (Path.body path).filter (!Path.isIdle ·) = [['-']]

/-- The text of a document: of a file, or of standard input when none is named or
a hyphen stands for it. -/
def readDocument (m : Machine) (file : Option Text) : Except CommandError Text :=
  match file with
  | some path =>
    if isInput path then readInput else m.readFile path
  | none => readInput
where
  /-- The text of standard input. -/
  readInput : Except CommandError Text :=
    match Text.decode? m.stdin with
    | some text => .ok text
    | none => .error .inputNotText

def stop (m : Machine) (error : CommandError) : Outcome :=
  { disk := m.disk, error := some error }

/-- Writes a file; what it printed so far is kept if that fails. -/
def write (m : Machine) (path contents : Text) (before : Outcome) (after : Outcome) : Outcome :=
  match (atomicWrite m.process path (Text.encode contents)).runUnder m.refusals 0 m.disk with
  | (.ok _, disk) => { after with disk }
  | (.error error, disk) => { before with disk, error := some error }

def prompt (m : Machine) (s : Session) (file : Option Text) : Except CommandError Resolution := do
  expandDocument m.disk m.programs s.config (some s.root) (← m.readDocument file)

def expand (m : Machine) (s : Session) (file output : Option Text) : Outcome :=
  match m.prompt s file with
  | .error error => m.stop error
  | .ok prompt =>
    let notes := prompt.notices.map fun n => "Warning: ".toList ++ n.message
    let quiet : Outcome := { disk := m.disk, notes }
    match output with
    | none => { quiet with stdout := prompt.text ++ ['\n'] }
    | some path =>
      let wrote := "Wrote ".toList ++ Text.ofNat prompt.text.byteLength ++ " bytes to ".toList ++
        path
      m.write path prompt.text quiet { quiet with notes := notes ++ [wrote] }

def spans (m : Machine) (s : Session) (file : Option Text) : Except CommandError (List Span) := do
  let text ← m.readDocument file
  let tags ← s.config.tagSet.mapError .tags
  return tags.spans text

def segment (m : Machine) (s : Session) (file : Option Text) (json : Bool) : Outcome :=
  match m.spans s file with
  | .error error => m.stop error
  | .ok spans =>
    { disk := m.disk, stdout := if json then Span.json spans ++ ['\n'] else Span.table spans }

/-- The document in a file and the tags that it is read with. -/
def openDocument (m : Machine) (s : Session) (file : Text) :
    Except CommandError (TagSet × Document) := do
  let tags ← s.config.tagSet.mapError .tags
  return (tags, { text := ← m.readFile file })

/-- Applies a change to the document in a file. -/
def edit (m : Machine) (s : Session) (file : Text) (change : TagSet → Document.Change)
    (warnings : List Warning) : Outcome :=
  match m.openDocument s file with
  | .error error => { m.stop error with warnings }
  | .ok (tags, document) =>
    let warned : Outcome := { disk := m.disk, warnings }
    match document.apply (change tags) with
    | (false, _) =>
      { warned with stdout := "No changes to ".toList ++ file ++ ['\n'] }
    | (true, document) =>
      let updated := "Updated ".toList ++ file ++ ['\n']
      let paths := (tags.contextPaths document.text).flatMap fun p => "  ".toList ++ p ++ ['\n']
      m.write file document.text warned { warned with stdout := updated ++ paths }

def missing (m : Machine) (s : Session) (paths : List Text) : List Warning :=
  (paths.filter fun p => !m.disk.isFile (Path.join s.root p.trim)).map (.notAFile · s.root)

def files (m : Machine) (s : Session) : Outcome :=
  let patterns := Listing.patterns m.disk s.root s.config.defaultExcludes
  let listing := Listing.ofRoot m.disk s.root patterns
  let warned : Outcome := { disk := m.disk, warnings := listing.warnings }
  match listing.files with
  | .error error => { warned with error := some error }
  | .ok paths => { warned with stdout := paths.flatMap (· ++ ['\n']) }

def perform (m : Machine) (s : Session) : Action → Outcome
  | .expand file output => m.expand s file output
  | .segment file json => m.segment s file json
  | .add file paths => m.edit s file (.add · paths) (m.missing s paths)
  | .remove file paths => m.edit s file (.remove · paths) []
  | .files => m.files s

def run (m : Machine) (r : Request) : Outcome :=
  match m.session r.root with
  | .error error => m.stop error
  | .ok s => m.perform s r.action

end Machine

end CommandLine

end PromptDoc
