/-
# PromptDoc.Segment.Basic — the pieces of a prompt document

A document is a sequence of segments: plain text, and directives written as
tags. A `Piece` is a segment with the text it was read from, and a `Span` is a
piece with its place in the document, counted in bytes.
-/
import PromptDoc.Text.Basic

namespace PromptDoc

set_option autoImplicit false

/-- One piece of meaning in a document. -/
inductive Segment where
  /-- Text between directives, as it stands. -/
  | text (content : Text)
  /-- Workspace files to inline, in document order. -/
  | context (paths : List Text)
  /-- A request for a diff against a branch, or against the default ref. -/
  | diff (branch : Option Text)
  /-- A note, without the blanks around it. -/
  | note (content : Text)
deriving DecidableEq, Repr

namespace Segment

def isDirective : Segment → Bool
  | .text _ => false
  | _ => true

def kind : Segment → Text
  | .text _ => "text".toList
  | .context _ => "context".toList
  | .diff _ => "diff".toList
  | .note _ => "note".toList

end Segment

/-- A segment with the spelling of its tag (none for text) and its source. -/
structure Piece where
  segment : Segment
  tag : Option Text
  source : Text
deriving DecidableEq, Repr

namespace Piece

/-- Plain text as a list of pieces: none when there is no text. -/
def plain : Text → List Piece
  | [] => []
  | t => [{ segment := .text t, tag := none, source := t }]

def join (pieces : List Piece) : Text := pieces.flatMap Piece.source

end Piece

/-- A piece and the byte of the document at which it starts. -/
structure Span extends Piece where
  start : Nat
deriving DecidableEq, Repr

namespace Span

def stop (s : Span) : Nat := s.start + s.source.byteLength

/-- Gives each piece its place, the first one starting at `start`. -/
def place (start : Nat) : List Piece → List Span
  | [] => []
  | p :: ps => { p with start } :: place (start + p.source.byteLength) ps

end Span

end PromptDoc
