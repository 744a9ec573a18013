/-
# PromptDoc.FileTree.Disk — a file tree and the operations on it

A `Disk` is a file tree with a working directory, from which relative paths are
walked. Questions follow links. Of the operations, `makeDirectory`, `rename` and
`remove` act on a link itself; `read`, `create` and `write` act on what it leads
to. An operation that is refused leaves no new disk, so what a refusal changes is
decided where the operations are put together.
-/
import PromptDoc.FileTree.Locate

namespace PromptDoc

set_option autoImplicit false

/-- A file tree and the location that relative paths start from. -/
structure Disk where
  tree : FileTree
  workingDirectory : Location := []

namespace Disk

/-- The absolute path of a location whose names are texts. -/
def pathOf (location : Location) : Text := '/' :: ['/'].intercalate location

/-- Walks the components of a path, if the path as a whole is one that can be
walked; `steps` says which components. A link at the end is followed only on
request. -/
def walkPath (d : Disk) (follow : Bool) (path : Text) (steps : List Text) :
    Except FileError Spot :=
  if path.contains '\x00' then .error .nulInPath
  else if path = [] then .error .notFound
  else if FileTree.maxPath < path.byteLength then .error .nameTooLong
  else
    FileTree.walk d.tree follow FileTree.maxLinks
      (if Path.isAbsolute path then [] else d.workingDirectory) steps

/-- Where a path leads; a link at its end is followed only on request. -/
def locate (d : Disk) (follow : Bool) (path : Text) : Except FileError Spot :=
  d.walkPath follow path (Path.steps path)

/-- The location of what stands at a path, links followed. -/
def find (d : Disk) (path : Text) : Except FileError Location := do
  match ← d.locate true path with
  | .existing location => return location
  | .missing _ _ => throw .notFound

/-- What stands at a path, links followed. -/
def node (d : Disk) (path : Text) : Except FileError FileTree := do
  match d.tree.get? (← d.find path) with
  | some node => return node
  | none => throw .notFound

def has (d : Disk) (path : Text) : Bool := (d.node path).toBool

def isFile (d : Disk) (path : Text) : Bool :=
  match d.node path with
  | .ok node => node.isFile
  | .error _ => false

def isDirectory (d : Disk) (path : Text) : Bool :=
  match d.node path with
  | .ok node => node.isDirectory
  | .error _ => false

def read (d : Disk) (path : Text) : Except FileError Bytes := do
  match ← d.node path with
  | .file contents => return contents
  | .directory _ => throw .isDirectory
  | .link _ => throw .notFound

def readText (d : Disk) (path : Text) : Except FileError Text := do
  match Text.decode? (← d.read path) with
  | some text => return text
  | none => throw .notText

/-- The disk with a node put at a location, or taken from it. -/
def put (d : Disk) (location : Location) (node : Option FileTree) : Disk :=
  { d with tree := d.tree.set node location }

/-- Makes a directory; a slash at the end of its path changes nothing. -/
def makeDirectory (d : Disk) (path : Text) : Except FileError Disk := do
  match ← d.locate false (Path.stripSlashes path) with
  | .existing _ => throw .alreadyExists
  | .missing parent name => return d.put (parent ++ [name]) (some (.directory []))

/-- Makes an empty file, or empties the one that is there. -/
def create (d : Disk) (path : Text) : Except FileError Disk := do
  if Path.endsInSlash path then throw .isDirectory
  match ← d.locate true path with
  | .missing parent name => return d.put (parent ++ [name]) (some (.file []))
  | .existing location =>
    match d.tree.get? location with
    | some (.file _) => return d.put location (some (.file []))
    | _ => throw .isDirectory

def write (d : Disk) (path : Text) (contents : Bytes) : Except FileError Disk := do
  let location ← d.find path
  match d.tree.get? location with
  | some (.file _) => return d.put location (some (.file contents))
  | _ => throw .isDirectory

/-- The directory that holds the last component of a path, links followed, and
that component. -/
def holder (d : Disk) (path : Text) : Except FileError (Location × Text) := do
  let steps := Path.steps (Path.stripSlashes path)
  match ← d.walkPath true path (steps.dropLast ++ [['.']]), steps.getLast? with
  | .existing location, some name => return (location, name)
  | .existing _, none => throw .busy
  | .missing _ _, _ => throw .notFound

/-- Gives the file at `source` the name `target`, in place of a file or link that
may be there. -/
def rename (d : Disk) (source target : Text) : Except FileError Disk := do
  let (sourceHolder, sourceName) ← d.holder source
  let (targetHolder, targetName) ← d.holder target
  if targetName = ['.'] || targetName = ['.', '.'] then throw .busy
  let sourceLocation := sourceHolder ++ [sourceName]
  let some node := d.tree.get? sourceLocation | throw .notFound
  if FileTree.maxName < targetName.byteLength then throw .nameTooLong
  if Path.endsInSlash target && !node.isDirectory then throw .notDirectory
  let targetLocation := targetHolder ++ [targetName]
  match d.tree.get? targetLocation with
  | some (.directory _) => throw .isDirectory
  | _ => return (d.put sourceLocation none).put targetLocation (some node)

def remove (d : Disk) (path : Text) : Except FileError Disk := do
  match ← d.locate false path with
  | .missing _ _ => throw .notFound
  | .existing location =>
    match d.tree.get? location with
    | some (.directory _) => throw .isDirectory
    | _ => return d.put location none

end Disk

end PromptDoc
