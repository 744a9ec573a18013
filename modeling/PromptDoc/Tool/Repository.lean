/-
# PromptDoc.Tool.Repository — finding a git repository

A repository is looked for in a directory and then in each one around it. A
directory is a repository's own if it has objects, refs and a `HEAD` that names a
ref or a commit; it usually stands as `.git` in the work tree. A file `.git` says
where else it is. What is found can turn out not to be usable: the file leads
nowhere, or the config is broken or of a later version.
-/
import PromptDoc.FileTree.Disk
import PromptDoc.Tool.GitConfig

namespace PromptDoc

set_option autoImplicit false

structure Repository where
  /-- The repository's own directory. -/
  directory : Location
  /-- The root of the work tree, if we are not in the repository's own directory. -/
  workTree : Option Location
  /-- Whether a file stands in the work tree for the directory. -/
  byFile : Bool
  bare : Bool
  /-- The keys of its config that stand in no section. -/
  stray : List Text := []
deriving DecidableEq, Repr

/-- What the search for a repository comes to. -/
inductive Discovery where
  | found (r : Repository)
  | nothing
  /-- A repository that this git is too old for. -/
  | unsupported (complaint : Text)
  /-- A repository that is broken. -/
  | broken (complaint : Text)
deriving DecidableEq, Repr

namespace Repository

def directoryName : Text := ".git".toList

/-- Whether a text is what a `HEAD` may hold: a ref, or a commit in 40 digits. -/
def isHead (t : Text) : Bool :=
  match "ref:".toList.isPrefixOf? t with
  | some ref => "refs/".toList.isPrefixOf (ref.dropWhile fun c => c = ' ' || c = '\t')
  | none =>
    let digits := t.take 40
    digits.length = 40 && digits.all fun c => c.isDigit || ('a' ≤ c.toLower && c.toLower ≤ 'f')

/-- Whether the `HEAD` at a path names a ref or a commit; a link does by its
target. -/
def hasHead (d : Disk) (path : Text) : Bool :=
  let node? := match d.locate false path with
    | .ok (.existing location) => d.tree.get? location
    | _ => none
  match node? with
  | some (.link target) => "refs/".toList.isPrefixOf target
  | some (.file contents) => isHead (Text.decodeLossy contents)
  | _ => false

/-- The path of what a repository's own directory shares with others: the one that
its file `commondir` names, or its own. -/
def sharedPath (d : Disk) (path : Text) : Text :=
  match d.read (Path.join path "commondir".toList) with
  | .ok contents =>
    let ends (c : Char) : Bool := c = '\n' || c = '\r'
    Path.join path (((Text.decodeLossy contents).reverse.dropWhile ends).reverse)
  | .error _ => path

def isGitDirectory (d : Disk) (path : Text) : Bool :=
  let shared (name : String) : Text := Path.join (sharedPath d path) name.toList
  d.isDirectory (shared "objects") && d.isDirectory (shared "refs") &&
    hasHead d (Path.join path "HEAD".toList)

/-! ## The config -/

/-- What the config says about a repository. -/
structure Format where
  /-- The version of the repository, if the config names one. -/
  version : Option Int := none
  bare : Option Bool := none
  workTree : Option Text := none
  /-- The extensions of the repository that are not known. -/
  unknown : List Text := []
  /-- The keys that stand in no section. -/
  stray : List Text := []

def knownExtensions : List Text :=
  ["noop", "noop-v1", "preciousobjects", "partialclone", "worktreeconfig", "objectformat"].map
    String.toList

/-- Takes an entry of the config at `path` into account. -/
def Format.add (path : Text) (f : Format) (e : Tool.GitEntry) : Except Text Format :=
  match String.ofList e.name with
  | "core.repositoryformatversion" =>
    match e.number? with
    | some n => .ok { f with version := some n }
    | none =>
      .error ("bad numeric config value '".toList ++ e.value.getD [] ++
        "' for 'core.repositoryformatversion' in file ".toList ++ path ++
        ": invalid unit".toList)
  | "core.bare" =>
    match e.flag? with
    | some b => .ok { f with bare := some b }
    | none =>
      .error ("bad boolean config value '".toList ++ e.value.getD [] ++
        "' for 'core.bare'".toList)
  | "core.worktree" => .ok { f with workTree := e.value }
  | _ =>
    match "extensions.".toList.isPrefixOf? e.name with
    | some extension =>
      if knownExtensions.contains extension then .ok f
      else .ok { f with unknown := f.unknown ++ [extension] }
    | none => .ok (if e.name.contains '.' then f else { f with stray := f.stray ++ [e.name] })

/-- The format of a repository, by its config; `shown` is how the path of the config
is told. -/
def format (d : Disk) (path shown : Text) : Except Text Format :=
  match d.read path with
  | .error .isDirectory =>
    .error "unknown error occurred while reading the configuration files".toList
  | .error _ => .ok {}
  | .ok contents => do
    let config := Tool.GitConfig.ofText (Text.decodeLossy contents)
    let f ← config.entries.foldlM (Format.add shown) {}
    match config.badLine with
    | some n => .error ("bad config line ".toList ++ Text.ofNat n ++ " in file ".toList ++ shown)
    | none => .ok f

def Format.complaint? (f : Format) : Option Text :=
  match f.version with
  | none => none
  | some version =>
    if 1 < version then
      some ("Expected git repo version <= 1, found ".toList ++ Text.ofInt version)
    else if version = 1 && f.unknown ≠ [] then
      some ((if f.unknown.length = 1 then "unknown repository extension found:".toList
        else "unknown repository extensions found:".toList) ++
        f.unknown.flatMap fun extension => "\n\t".toList ++ extension)
    else none

/-- What a repository comes to when its config is read. Only a config that names a
version decides about the work tree. -/
def settle (d : Disk) (r : Repository) (shown : Text) : Discovery :=
  let path := Disk.pathOf r.directory
  match format d (Path.join (sharedPath d path) "config".toList) (Path.join shown "config".toList) with
  | .error complaint => .broken complaint
  | .ok f =>
    match f.complaint? with
    | some complaint => .unsupported complaint
    | none =>
      let r := { r with stray := f.stray }
      if f.version.any (0 ≤ ·) then
        match f.workTree with
        | some target =>
          let target := Path.join path target
          match d.find target with
          | .ok location => .found { r with workTree := some location, byFile := true }
          | .error _ => .broken ("Invalid path '".toList ++ target ++
              "': No such file or directory".toList)
        | none =>
          if f.bare = some true then .found { r with workTree := none, bare := true }
          else .found { r with bare := r.bare && f.bare ≠ some false }
      else .found { r with bare := r.bare && f.bare ≠ some false }

/-! ## The search -/

/-- The directory that a file `.git` names; the path of the file is told in
complaints. -/
def named (d : Disk) (here : Text) (contents : Bytes) : Except Text Location :=
  let file := Path.join here directoryName
  let text := (Text.decodeLossy contents).reverse.dropWhile (fun c => c = '\n' || c = '\r')
  match "gitdir: ".toList.isPrefixOf? text.reverse with
  | none =>
    if "gitdir: ".toList.isPrefixOf (Text.decodeLossy contents) then
      .error ("no path in gitfile: ".toList ++ file)
    else .error ("invalid gitfile format: ".toList ++ file)
  | some [] => .error ("no path in gitfile: ".toList ++ file)
  | some target =>
    let target := Path.join here target
    match isGitDirectory d target, d.find target with
    | true, .ok location => .ok location
    | _, _ => .error ("not a git repository: ".toList ++ target)

/-- The repository that a directory belongs to, looked for in it and in those
around it, which are given from the inside out. -/
def findFrom (d : Disk) : List Location → Discovery
  | [] => .nothing
  | here :: outer =>
    let path := Disk.pathOf here
    let inner := Path.join path directoryName
    match d.read inner with
    | .ok contents =>
      match named d path contents with
      | .ok location =>
        settle d { directory := location, workTree := some here, byFile := true, bare := false }
          (Disk.pathOf location)
      | .error complaint => .broken complaint
    | .error _ =>
      match isGitDirectory d inner, d.find inner with
      | true, .ok location =>
        settle d { directory := location, workTree := some here, byFile := false, bare := false }
          directoryName
      | _, _ =>
        if isGitDirectory d path then
          settle d { directory := here, workTree := none, byFile := false, bare := true } ['.']
        else findFrom d outer

/-- A location and those around it, from the inside out. -/
def upward (location : Location) : List Location :=
  (List.range (location.length + 1)).reverse.map location.take

def find (d : Disk) : Discovery := findFrom d (upward d.workingDirectory)

def gitPath (r : Repository) : Text := Disk.pathOf r.directory

def headText (r : Repository) (d : Disk) : Text :=
  match d.read (Path.join r.gitPath "HEAD".toList) with
  | .ok contents => Text.decodeLossy contents
  | .error _ => []

def head? (r : Repository) (d : Disk) : Option Text := do
  let ref ← "ref:".toList.isPrefixOf? (r.headText d)
  return Text.trim (ref.takeWhile (· ≠ '\n'))

/-- Whether a text is the digits of a commit. -/
def isCommit (t : Text) : Bool := t.length = 40 && isHead t

/-- Whether a ref names a commit by its digits, in itself or in the `HEAD`. -/
def namesCommit (r : Repository) (d : Disk) (ref : Text) : Bool :=
  let head := r.headText d
  isCommit ref ||
    ref = "HEAD".toList && isCommit (head.take 40) && (head[40]?).all (·.isWhitespace)

end Repository

end PromptDoc
