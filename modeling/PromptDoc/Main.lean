/-
# PromptDoc.Main — the command line

Takes an image of the directory that the command runs in, has the library decide
what the command does to it, and carries that out: the output is printed, and a
file that changed is replaced step by step as `atomicWrite` says.
-/
import PromptDoc.CommandLine.Run
import PromptDoc.FileTree.Changes
import PromptDoc.Tool.Table

namespace PromptDoc.Main

set_option autoImplicit false

def fileError : IO.Error → FileError
  | .noFileOrDirectory .. => .notFound
  | .permissionDenied .. => .permissionDenied
  | .alreadyExists .. => .alreadyExists
  | .resourceBusy .. => .busy
  | .inappropriateType .. => .notDirectory
  | e => .other (toString e).toList

def answer (act : IO Bool) : IO (Except FileError Bool) := do
  try
    return .ok (← act)
  catch e =>
    return .error (fileError e)

def isDirectory (path : String) : IO Bool := do
  let base ← IO.currentDir
  (base / path).isDir

def perform (s : Step) : IO (Except FileError Bool) :=
  let name (path : Text) : String := String.ofList path
  answer <|
    match s with
    | .has path => do
      let base ← IO.currentDir
      (base / name path).pathExists
    | .isDirectory path => isDirectory (name path)
    | .makeDirectory path => do
      IO.FS.createDir (name path)
      return true
    | .create path => do
      IO.FS.writeBinFile (name path) .empty
      return true
    | .write path contents => do
      IO.FS.writeBinFile (name path) ⟨contents.toArray⟩
      return true
    | .sync _ => return true
    | .rename source target => do
      IO.FS.rename (name source) (name target)
      return true
    | .remove path => do
      IO.FS.removeFile (name path)
      return true

/-- Carries a script out on the real file system. -/
def carryOut {α : Type} : Script α → IO α
  | .done a => return a
  | .step s rest => do carryOut (rest (← perform s))

/-- The image of what stands at a path. What cannot be read is left out, and so is
what a repository keeps in its objects and refs. A link to a directory stays a link,
and any other stands for the file behind it. -/
partial def image (path : String) : IO (Option FileTree) := do
  try
    let base ← IO.currentDir
    let here := base / path
    if ← here.isDir then
      if (← here.symlinkMetadata).type == .symlink then
        return some (.link (toString (← IO.FS.realPath here)).toList)
      let mut entries : List (Text × FileTree) := []
      for entry in ← here.readDir do
        let bare := path.endsWith "/.git" && (entry.fileName = "objects" || entry.fileName = "refs")
        if bare then
          entries := (entry.fileName.toList, .directory []) :: entries
        else if let some t ← image (path ++ "/" ++ entry.fileName) then
          entries := (entry.fileName.toList, t) :: entries
      return some (.directory entries)
    else
      return some (.file (← IO.FS.readBinFile here).toList)
  catch _ =>
    return none

/-- The outermost of a location and those around it that holds a repository, or
the location itself. -/
def outermost (location : Location) : IO Location := do
  let mut found := location
  for place in Repository.upward location do
    if ← isDirectory (String.ofList (Path.join (Disk.pathOf place) Repository.directoryName)) then
      found := place
  return found

/-- The disk as a command sees it: the work tree around the current directory, and
the root that is named. -/
def disk (root : Option Text) : IO Disk := do
  let here : Location := (Path.steps (toString (← IO.currentDir)).toList).filter (· ≠ ['.'])
  let top ← outermost here
  let mut tree : FileTree := .directory []
  if let some t ← image (String.ofList (Disk.pathOf top)) then
    tree := tree |> FileTree.plant t top
  if let some path := root then
    let named ← IO.FS.realPath (String.ofList path)
    let location : Location := (Path.steps (toString named).toList).filter (· ≠ ['.'])
    if (tree.get? location).isNone then
      if let some t ← image (toString named) then
        tree := tree |> FileTree.plant t location
  return { tree, workingDirectory := here }

/-- All of standard input. -/
partial def readInput (stream : IO.FS.Stream) (soFar : ByteArray) : IO ByteArray := do
  let more ← stream.read 65536
  if more.isEmpty then return soFar else readInput stream (soFar ++ more)

def readsInput : CommandLine.Action → Bool
  | .expand file _ => file.all (· = ['-'])
  | .segment file _ => file.all (· = ['-'])
  | _ => false

/-- Carries out what a command does. -/
def finish (process : Nat) (before : Disk) (o : CommandLine.Outcome) : IO UInt32 := do
  for (path, contents) in before.tree.changes o.disk.tree do
    if let some contents := contents then
      if Path.endsInSlash path then
        discard <| perform (.makeDirectory ('/' :: path))
      else if let .error e ← carryOut (atomicWrite process ('/' :: path) contents) then
        IO.eprintln (String.ofList e.message)
        return e.exitCode.toUInt32
  for warning in o.warnings do
    IO.eprintln (String.ofList warning.message)
  for note in o.notes do
    IO.eprintln (String.ofList note)
  IO.print (String.ofList o.stdout)
  match o.error with
  | none => return 0
  | some e =>
    IO.eprintln ("Error: " ++ String.ofList e.message)
    return e.exitCode.toUInt32

end PromptDoc.Main

def main (arguments : List String) : IO UInt32 := do
  match PromptDoc.CommandLine.parse (arguments.map String.toList) with
  | .error usage =>
    IO.eprintln "usage: promptbuddy [--root DIR] expand|segment|add|remove|files ..."
    return usage.exitCode.toUInt32
  | .ok request =>
    let disk ← PromptDoc.Main.disk request.root
    let stdin ← if PromptDoc.Main.readsInput request.action then
      PromptDoc.Main.readInput (← IO.getStdin) .empty else pure .empty
    let process := 1 + (← IO.monoNanosNow) % 99999
    PromptDoc.Main.finish process disk
      (PromptDoc.CommandLine.Machine.run
        { disk, programs := PromptDoc.Programs.small disk, stdin := stdin.toList, process }
        request)
