/-
# PromptDoc.FileTree.Locate — from a path to a location

A path is walked component by component. A link on the way is replaced by its
target; at most 40 links are followed in one walk. The last component may be
missing, which is where something new can be made (`Spot.missing`), and a link
there is followed only on request.
-/
import PromptDoc.FileTree.Basic
import PromptDoc.FileTree.Error
import PromptDoc.FileTree.Path

namespace PromptDoc

set_option autoImplicit false

/-- Where a path leads. -/
inductive Spot where
  /-- To a node. -/
  | existing (location : Location)
  /-- To a name that its directory does not hold. -/
  | missing (directory : Location) (name : Text)
deriving DecidableEq, Repr

namespace FileTree

def maxLinks : Nat := 40

def maxName : Nat := 255

def maxPath : Nat := 4095

/-- Walks on from a directory. A link is followed by `beyond`, with the steps of its target in
front of those that are left; a link at the very end only if `follow`. -/
def walkOn (root : FileTree) (follow : Bool)
    (beyond : Location → List Text → Except FileError Spot) (here : Location) :
    List Text → Except FileError Spot
  | [] => .ok (.existing here)
  | step :: steps =>
    match root.get? here with
    | some (.directory entries) =>
      if step = ['.'] then walkOn root follow beyond here steps
      else if step = ['.', '.'] then walkOn root follow beyond here.dropLast steps
      else if maxName < step.byteLength then .error .nameTooLong
      else
        match child? step entries with
        | none => if steps = [] then .ok (.missing here step) else .error .notFound
        | some (.link target) =>
          if steps = [] && !follow then .ok (.existing (here ++ [step]))
          else
            beyond (if Path.isAbsolute target then [] else here) (Path.steps target ++ steps)
        | some _ => walkOn root follow beyond (here ++ [step]) steps
    | _ => .error .notDirectory

/-- Walks on from a directory, following at most so many links. -/
def walk (root : FileTree) (follow : Bool) : Nat → Location → List Text → Except FileError Spot
  | 0 => walkOn root follow fun _ _ => .error .tooManyLinks
  | links + 1 => walkOn root follow (walk root follow links)

end FileTree

end PromptDoc
