/-
# PromptDoc.FileTree.Script — file operations as data

A `Script` says which steps are taken on a disk and how it goes on after each
answer. Since it is data, one script can be run to its end (`Script.run`), cut off
after any step, or run on a disk that refuses some of the steps (`Script.runUnder`):
because it is full, the medium fails or a right is missing, none of which its tree
shows.
-/
import PromptDoc.FileTree.Disk

namespace PromptDoc

set_option autoImplicit false

/-- One step on a disk. -/
inductive Step where
  /-- Asks whether something stands at a path. -/
  | has (path : Text)
  /-- Asks whether a directory stands at a path. -/
  | isDirectory (path : Text)
  | makeDirectory (path : Text)
  | create (path : Text)
  | write (path : Text) (contents : Bytes)
  /-- Waits until what stands at a path is on the medium. -/
  | sync (path : Text)
  | rename (source target : Text)
  | remove (path : Text)
deriving DecidableEq, Repr

/-- That a disk refuses a step for a reason that its tree does not show. -/
structure Refusal where
  error : FileError
  /-- How many bytes a refused write has written before. -/
  written : Nat := 0

namespace Step

/-- The answer to a step and the disk after it. A step that is refused changes
nothing. -/
def perform (d : Disk) : Step → Except FileError Bool × Disk
  | .has path => (.ok (d.has path), d)
  | .isDirectory path => (.ok (d.isDirectory path), d)
  | .makeDirectory path => settle (d.makeDirectory path)
  | .create path => settle (d.create path)
  | .write path contents => settle (d.write path contents)
  | .sync path => ((d.node path).map fun _ => true, d)
  | .rename source target => settle (d.rename source target)
  | .remove path => settle (d.remove path)
where
  /-- The new disk if there is one, else the old. -/
  settle : Except FileError Disk → Except FileError Bool × Disk
    | .ok d => (.ok true, d)
    | .error e => (.error e, d)

/-- The disk after a step that it refuses. -/
def refused (r : Refusal) (d : Disk) : Step → Disk
  | .write path contents => (perform d (.write path (contents.take r.written))).2
  | _ => d

end Step

/-- What a disk refuses, by how many steps came before and by the step. -/
abbrev Refusals := Nat → Step → Option Refusal

/-- Steps on a disk, and a result. -/
inductive Script (α : Type) where
  | done (result : α)
  | step (first : Step) (rest : Except FileError Bool → Script α)

namespace Script

/-- One script, then one that depends on its result. -/
def bind {α β : Type} : Script α → (α → Script β) → Script β
  | .done a, f => f a
  | .step s rest, f => .step s fun answer => (rest answer).bind f

instance : Monad Script where
  pure := .done
  bind := bind

def take (s : Step) : Script (Except FileError Bool) := .step s .done

/-- The answer to a question; a refusal counts as no. -/
def ask (s : Step) : Script Bool := .step s fun answer => .done (answer.toOption.getD false)

/-- The result of a script and the disk after it, where the disk refuses some
steps; `taken` counts the steps before. -/
def runUnder {α : Type} (refusals : Refusals) : Script α → Nat → Disk → α × Disk
  | .done a, _, d => (a, d)
  | .step s rest, taken, d =>
    match refusals taken s with
    | none =>
      let (answer, d) := s.perform d
      (rest answer).runUnder refusals (taken + 1) d
    | some r => (rest (.error r.error)).runUnder refusals (taken + 1) (s.refused r d)

def run {α : Type} (script : Script α) (d : Disk) : α × Disk :=
  script.runUnder (fun _ _ => none) 0 d

end Script

end PromptDoc
