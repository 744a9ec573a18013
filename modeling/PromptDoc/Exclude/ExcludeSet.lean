/-
# PromptDoc.Exclude.ExcludeSet — which files and directories are left out

Exclude patterns are globs, written with either kind of slash and with blanks
around them that do not count. A pattern that is no glob is skipped with a
warning. A pattern that ends in `/**` also excludes the directory itself, so that
a listing need not enter it. Patterns of which one is nested too deep make no set
at all.
-/
import PromptDoc.Glob.Expression
import PromptDoc.Glob.Parse

namespace PromptDoc

set_option autoImplicit false

/-- What a user is told beside the result of a command. -/
inductive Warning where
  /-- An exclude pattern, as given and as read, is no glob. -/
  | invalidPattern (pattern normalized : Text) (defect : Glob.Defect)
  /-- A path that is added is not a file of the workspace. -/
  | notAFile (path root : Text)
deriving DecidableEq, Repr

namespace Warning

def message : Warning → Text
  | .invalidPattern pattern normalized defect =>
    "skipping invalid exclude pattern pattern=".toList ++ pattern ++
      " error=error parsing glob '".toList ++ normalized ++ "': ".toList ++ defect.message
  | .notAFile path root =>
    "path is not a file in the workspace path=".toList ++ path ++ " root=".toList ++ root

end Warning

/-- Compiled exclude patterns. -/
structure ExcludeSet where
  /-- The globs of excluded files. -/
  files : List Glob
  /-- The globs of excluded directories. -/
  directories : List Glob

namespace ExcludeSet

def forwardSlashes (t : Text) : Text := t.map fun c => if c = '\x5c' then '/' else c

/-- A pattern as it is read. -/
def normalize (pattern : Text) : Text := forwardSlashes pattern.trim

/-- What stands before `/**` at the end of a pattern, if anything does. -/
def directoryPart? (pattern : Text) : Option Text := do
  let reversed ← "**/".toList.isPrefixOf? pattern.reverse
  if reversed = [] then none
  return reversed.reverse

/-- The glob of a pattern; none for one that is blank or no glob. -/
def fileGlob? (pattern : Text) : Option Glob :=
  if normalize pattern = [] then none else (Glob.ofText (normalize pattern)).toOption

/-- The glob of the directory that a pattern stands for the contents of. -/
def directoryGlob? (pattern : Text) : Option Glob := do
  let _ ← fileGlob? pattern
  (Glob.ofText (← directoryPart? (normalize pattern))).toOption

/-- The globs of patterns. -/
def globs (patterns : List Text) : ExcludeSet where
  files := patterns.filterMap fileGlob?
  directories := patterns.filterMap directoryGlob?

/-- The first glob that is nested too deep, if any is. -/
def nestingDefect? (s : ExcludeSet) : Option Glob.NestingDefect :=
  (Glob.nestingDefect? s.files).or (Glob.nestingDefect? s.directories)

/-- The exclude set of patterns, none of which may be nested too deep. -/
def ofPatterns (patterns : List Text) : Except Glob.NestingDefect ExcludeSet :=
  match (globs patterns).nestingDefect? with
  | some defect => .error defect
  | none => .ok (globs patterns)

/-- What is wrong with a pattern, if anything is. -/
def warning? (pattern : Text) : Option Warning :=
  if normalize pattern = [] then none
  else
    match Glob.ofText (normalize pattern) with
    | .ok _ => none
    | .error defect => some (.invalidPattern pattern (normalize pattern) defect)

def warnings (patterns : List Text) : List Warning := patterns.filterMap warning?

def excludesFile (s : ExcludeSet) (path : Text) : Bool := s.files.any (·.matches path)

/-- Whether a directory is left out, with all that is in it. -/
def excludesDirectory (s : ExcludeSet) (path : Text) : Bool := s.directories.any (·.matches path)

end ExcludeSet

end PromptDoc
