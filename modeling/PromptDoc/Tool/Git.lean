/-
# PromptDoc.Tool.Git — a git that knows repositories without commits

The questions about a repository that need none of its objects, and differences
between two files. A ref is never known, since there are no commits.
-/
import PromptDoc.Tool.DiffUsage
import PromptDoc.Tool.LineDiff
import PromptDoc.Tool.Print
import PromptDoc.Tool.Repository
import PromptDoc.Tool.Sha1

namespace PromptDoc.Tool.Git

set_option autoImplicit false

def noRepository : ProgramOutput :=
  failure 128
    "fatal: not a git repository (or any of the parent directories): .git\n".toList

def unknownRef (ref : Text) : Text :=
  "fatal: ambiguous argument '".toList ++ ref ++
    ("': unknown revision or path not in the working tree.\n" ++
      "Use '--' to separate paths from revisions, like this:\n" ++
      "'git <command> [<revision>...] -- [<file>...]'\n").toList

def yesNo (b : Bool) : Text := if b then "true".toList else "false".toList

/-- Whether a location is in a directory or the directory itself. -/
def isWithin (root location : Location) : Bool := root.isPrefixOf location

/-- Where the working directory is in a work tree; the root itself stands for places
outside of it. -/
def insideOf (d : Disk) (root : Location) : Location :=
  if isWithin root d.workingDirectory then d.workingDirectory.drop root.length else []

def noWorkTree : ProgramOutput :=
  failure 128 "fatal: this operation must be run in a work tree\n".toList

/-- How the repository's own directory is called from the working directory. -/
def gitDirectoryName (d : Disk) (r : Repository) : Text :=
  match r.workTree with
  | some root =>
    if !r.byFile && d.workingDirectory = root then Repository.directoryName else r.gitPath
  | none => if d.workingDirectory = r.directory then ['.'] else r.gitPath

/-- Answers one argument of `rev-parse`; none if it is not known. -/
def revParseOne (d : Disk) (r : Repository) (a : Text) : Except ProgramOutput Bytes :=
  match r.workTree, String.ofList a with
  | some root, "--show-toplevel" => .ok (line (Disk.pathOf root))
  | none, "--show-toplevel" => .error noWorkTree
  | some root, "--show-prefix" => .ok (line ((insideOf d root).flatMap (· ++ ['/'])))
  | none, "--show-prefix" => .ok (line [])
  | some root, "--show-cdup" => .ok (line ((insideOf d root).flatMap fun _ => "../".toList))
  | _, "--git-dir" => .ok (line (gitDirectoryName d r))
  | _, "--absolute-git-dir" => .ok (line r.gitPath)
  | root, "--is-inside-work-tree" =>
    .ok (line (yesNo (root.any (isWithin · d.workingDirectory))))
  | _, "--is-inside-git-dir" => .ok (line (yesNo (isWithin r.directory d.workingDirectory)))
  | _, "--is-bare-repository" => .ok (line (yesNo r.bare))
  | _, "--abbrev-ref" => .ok []
  | _, "--verify" => .error (failure 128 "fatal: Needed a single revision\n".toList)
  | _, _ =>
    if a.head? = some '-' then .ok (line a)
    else
      .error
        { exitCode := some 128, stdout := line a, stderr := Text.encode (unknownRef a) }

def revParse (d : Disk) (r : Repository) (arguments : List Text) : ProgramOutput :=
  arguments.foldl
    (fun (o : ProgramOutput) a =>
      if o.exitCode = some 0 then
        match revParseOne d r a with
        | .ok b => { o with stdout := o.stdout ++ b }
        | .error e => { e with stdout := o.stdout ++ e.stdout }
      else o)
    (success [])

def symbolicRef (d : Disk) (r : Repository) (arguments : List Text) : ProgramOutput :=
  let short := arguments.contains "--short".toList
  match arguments.filter fun a => a.head? ≠ some '-' with
  | [name] =>
    match (if name = "HEAD".toList then r.head? d else none) with
    | some ref =>
      let shortened := ("refs/heads/".toList.isPrefixOf? ref).getD ref
      success (line (if short then shortened else ref))
    | none =>
      failure 128 ("fatal: ref ".toList ++ name ++ " is not a symbolic ref\n".toList)
  | _ => failure 129 []

/-- Whether a path has to be written in quotes. -/
def isPlain (path : Text) : Bool :=
  path.all fun c => 32 ≤ c.toNat && c.toNat < 127 && c ≠ '\x22' && c ≠ '\x5c'

def quotedByte (b : UInt8) : Text :=
  let n := b.toNat
  if n = 34 || n = 92 then ['\x5c', Char.ofNat n]
  else if n = 9 then "\\t".toList
  else if n = 10 then "\\n".toList
  else if 32 ≤ n && n < 127 then [Char.ofNat n]
  else ['\x5c', Nat.digitChar (n / 64), Nat.digitChar (n / 8 % 8), Nat.digitChar (n % 8)]

def pathText (path : Text) : Text :=
  if isPlain path then path
  else ['\x22'] ++ (Text.encode path).flatMap quotedByte ++ ['\x22']

def side (letter : String) (path : Text) : Text :=
  pathText (letter.toList ++ ['/'] ++ path.dropWhile (· = '/'))

/-- The name of a file in front of its lines; a name with a space ends in a tab. -/
def sideLine (mark letter : String) (path : Text) : Text :=
  mark.toList ++ [' '] ++ side letter path ++ (if path.contains ' ' then ['\t'] else [])

def blobName (contents : Bytes) : Text :=
  Sha1.digest
    (Text.encode ("blob ".toList ++ Text.ofNat contents.length ++ ['\x00']) ++ contents)

def patch (oldPath newPath : Text) (old new : Bytes) : Bytes :=
  let heading := line ("diff --git ".toList ++ side "a" oldPath ++ [' '] ++ side "b" newPath) ++
    line ("index ".toList ++ (blobName old).take 7 ++ "..".toList ++ (blobName new).take 7 ++
      " 100644".toList)
  if LineDiff.isBinary old || LineDiff.isBinary new then
    heading ++ line ("Binary files ".toList ++ side "a" oldPath ++ " and ".toList ++
      side "b" newPath ++ " differ".toList)
  else
    heading ++ line (sideLine "---" "a" oldPath) ++ line (sideLine "+++" "b" newPath) ++
      (LineDiff.hunks 3 (LineDiff.edits ⟨.frequent, true, false⟩ old new)).flatMap (·.render)

def diffFiles (d : Disk) (options : List Text) (oldPath newPath : Text) : ProgramOutput :=
  let has (name : String) : Bool := options.contains name.toList
  match d.read oldPath, d.read newPath with
  | .ok old, .ok new =>
    if old = new then success []
    else
      let shown :=
        if has "--quiet" || has "-q" || has "-s" || has "--no-patch" then []
        else if has "--name-only" then line (pathText newPath)
        else if has "--name-status" then line ("M\t".toList ++ pathText oldPath)
        else patch oldPath newPath old new
      { exitCode := some 1, stdout := shown }
  | .ok _, .error _ => missing newPath
  | .error _, _ => missing oldPath
where
  /-- The complaint about a path that cannot be read. -/
  missing (path : Text) : ProgramOutput :=
    failure 1 ("error: Could not access '".toList ++ path ++ "'\n".toList)

def diffUsage : ProgramOutput := failure 129 DiffUsage.text

def complaining (complaint : Text) (o : ProgramOutput) : ProgramOutput :=
  { o with stderr := Text.encode complaint ++ o.stderr }

/-- An answer in a repository, after the complaints about its config. -/
def within (r : Repository) (o : ProgramOutput) : ProgramOutput :=
  complaining (r.stray.flatMap fun key =>
    "error: key does not contain a section: ".toList ++ key ++ ['\n']) o

/-- `git diff`. Outside a repository it compares two files; in one without commits
every ref is unknown, and no path differs from what is recorded. -/
def diff (d : Disk) (arguments : List Text) : ProgramOutput :=
  let options := arguments.filter fun a => a.head? = some '-' && a ≠ ['-']
  let operands := arguments.filter fun a => !(a.head? = some '-' && a ≠ ['-'])
  let compare (otherwise : ProgramOutput) : ProgramOutput :=
    match operands with
    | [old, new] => diffFiles d options old new
    | _ => otherwise
  let outside : ProgramOutput := compare (complaining
    ("warning: Not a git repository. Use --no-index to compare two paths outside " ++
      "a working tree\n").toList diffUsage)
  let asked := options.contains "--no-index".toList
  match Repository.find d with
  | .broken complaint => failure 128 ("fatal: ".toList ++ complaint ++ ['\n'])
  | .unsupported complaint =>
    complaining ("warning: ".toList ++ complaint ++ ['\n'])
      (if asked then compare diffUsage else outside)
  | .nothing => if asked then compare diffUsage else outside
  | .found r =>
    within r <|
    if asked then compare diffUsage
    else
      match operands.find? fun a => !d.has a with
      | some ref =>
        if r.namesCommit d ref then failure 128 ("fatal: bad object ".toList ++ ref ++ ['\n'])
        else failure 128 (unknownRef ref)
      | none => if r.workTree.isNone then noWorkTree else success []

def run (d : Disk) : List Text → ProgramOutput
  | [] => { exitCode := some 1 }
  | name :: arguments =>
    let inRepository (answer : Repository → ProgramOutput) : ProgramOutput :=
      match Repository.find d with
      | .found r => within r (answer r)
      | .nothing => noRepository
      | .unsupported complaint | .broken complaint =>
        failure 128 ("fatal: ".toList ++ complaint ++ ['\n'])
    match String.ofList name with
    | "diff" => diff d arguments
    | "rev-parse" => inRepository fun r => revParse d r arguments
    | "symbolic-ref" => inRepository fun r => symbolicRef d r arguments
    | "branch" => inRepository fun r =>
      if arguments.contains "--show-current".toList then
        success (((r.head? d).bind ("refs/heads/".toList.isPrefixOf? ·)).elim [] line)
      else success []
    | "log" | "show" => inRepository fun r =>
      let branch := (r.head? d).bind ("refs/heads/".toList.isPrefixOf? ·)
      failure 128 ("fatal: your current branch '".toList ++ branch.getD [] ++
        "' does not have any commits yet\n".toList)
    | "checkout" => inRepository fun _ =>
      match arguments with
      | [ref] => failure 1 ("error: pathspec '".toList ++ ref ++
          "' did not match any file(s) known to git\n".toList)
      | _ => success []
    | "ls-files" | "tag" | "remote" | "stash" | "for-each-ref" => inRepository fun _ => success []
    | "hash-object" =>
      match arguments with
      | [path] =>
        match d.read path with
        | .ok contents => success (line (blobName contents))
        | .error e => failure 128 ("fatal: could not open '".toList ++ path ++
            "' for reading: ".toList ++ e.summary ++ ['\n'])
      | _ => failure 129 []
    | _ =>
      failure 1 ("git: '".toList ++ name ++
        "' is not a git command. See 'git --help'.\n".toList)

end PromptDoc.Tool.Git
