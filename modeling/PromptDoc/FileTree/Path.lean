/-
# PromptDoc.FileTree.Path — paths as they are written

A path is a text whose components stand between slashes. Empty components and
single dots mean nothing, except a dot that a relative path begins with. The
parent of a path is a part of its text: what is left when the last component and
the slashes around it are taken away.
-/
import PromptDoc.Text.Basic

namespace PromptDoc.Path

set_option autoImplicit false

def isAbsolute : Text → Bool
  | '/' :: _ => true
  | _ => false

def endsInSlash (path : Text) : Bool := path.getLast? == some '/'

/-- The path that a second one means when it is read from a first. -/
def join (base path : Text) : Text :=
  if isAbsolute path then path
  else if base.isEmpty || endsInSlash base then base ++ path
  else base ++ ['/'] ++ path

def stripSlashes (path : Text) : Text :=
  match (path.reverse.dropWhile (· = '/')).reverse with
  | [] => path.take 1
  | stripped => stripped

/-- The components to walk, in order; a slash at the end counts as a dot, since
what stands before it has to be a directory. -/
def steps (path : Text) : List Text :=
  (path.splitOn '/').filter (· ≠ []) ++ (if endsInSlash path then [['.']] else [])

/-- How much of a path is its root or the dot it begins with. -/
def baseLength : Text → Nat
  | '/' :: _ => 1
  | ['.'] => 1
  | '.' :: '/' :: _ => 1
  | _ => 0

/-- Whether a component means nothing. -/
def isIdle (component : Text) : Bool := component = [] || component = ['.']

/-- The components after the base, without the idle ones at the end. -/
def body (path : Text) : List Text :=
  (((path.drop (baseLength path)).splitOn '/').reverse.dropWhile isIdle).reverse

/-- The path of what holds the last component; none for the root and for the
empty path. -/
def parent? (path : Text) : Option Text :=
  match body path with
  | [] => if path.take 1 = ['.'] then some [] else none
  | components =>
    let outer := (components.dropLast.reverse.dropWhile isIdle).reverse
    some (path.take (baseLength path) ++ ['/'].intercalate outer)

/-- The last component, unless it is `..` or there is none. -/
def fileName? (path : Text) : Option Text :=
  match (body path).getLast? with
  | some name => if name = ['.', '.'] then none else some name
  | none => none

end PromptDoc.Path
