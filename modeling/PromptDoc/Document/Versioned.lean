/-
# PromptDoc.Document.Versioned — a document that several writers share

A `Document` is a text with a version. A local change raises the version by one,
and only if the text really differs; a change made elsewhere brings its own
version along and is taken only if that is newer than the one at hand. Every
change answers whether it took effect.
-/
import PromptDoc.Document.Paths

namespace PromptDoc

set_option autoImplicit false

/-- A text and the version it has reached. -/
structure Document where
  text : Text
  version : Nat := 0
deriving DecidableEq, Repr

namespace Document

/-- Replaces the text from within. -/
def edit (d : Document) (text : Text) : Bool × Document :=
  if text = d.text then (false, d) else (true, { text, version := d.version + 1 })

/-- Takes over a text written elsewhere at `version`. -/
def applyExternal (d : Document) (text : Text) (version : Nat) : Bool × Document :=
  if version ≤ d.version then (false, d) else (true, { text, version })

def addPaths (d : Document) (tags : TagSet) (paths : List Text) : Bool × Document :=
  d.edit (tags.addPaths d.text paths)

def removePaths (d : Document) (tags : TagSet) (paths : List Text) : Bool × Document :=
  d.edit (tags.removePaths d.text paths)

/-- What a writer can do to a document. -/
inductive Change where
  | edit (text : Text)
  | external (text : Text) (version : Nat)
  | add (tags : TagSet) (paths : List Text)
  | remove (tags : TagSet) (paths : List Text)

/-- Makes a change: whether it took effect, and the document after it. -/
def apply (d : Document) : Change → Bool × Document
  | .edit text => d.edit text
  | .external text version => d.applyExternal text version
  | .add tags paths => d.addPaths tags paths
  | .remove tags paths => d.removePaths tags paths

end Document

end PromptDoc
