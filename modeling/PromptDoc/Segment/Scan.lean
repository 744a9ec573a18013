/-
# PromptDoc.Segment.Scan — a document in pieces

A document is read from left to right: the next directive is the one that starts
first (`TagSet.nextDirective?`), what stands before it is text, and reading goes
on behind it (`TagSet.pieces`). A place that starts no directive belongs to the
text around it, so unfinished and unknown tags stay text.
-/
import PromptDoc.Segment.Directive

namespace PromptDoc

set_option autoImplicit false

namespace TagSet

/-- The first directive of a text, and the text before it. -/
def nextDirective? (tags : TagSet) : Text → Option (Text × Directive)
  | [] => none
  | c :: cs =>
    match tags.directiveAt? (c :: cs) with
    | some d => some ([], d)
    | none => (nextDirective? tags cs).map fun (before, d) => (c :: before, d)

theorem length_of_nextDirective? {tags : TagSet} {t before : Text} {d : Directive}
    (h : tags.nextDirective? t = some (before, d)) : d.rest.length < t.length := by
  induction t generalizing before with
  | nil => simp [nextDirective?] at h
  | cons c cs ih =>
    unfold nextDirective? at h
    split at h
    · rename_i found
      cases h
      exact length_of_directiveAt? found
    · simp only [Option.map_eq_some_iff, Prod.mk.injEq, Prod.exists] at h
      obtain ⟨b, d', next, _, rfl⟩ := h
      exact Nat.lt_succ_of_lt (ih next)

def pieces (tags : TagSet) (t : Text) : List Piece :=
  match h : tags.nextDirective? t with
  | none => Piece.plain t
  | some (before, d) =>
    have := length_of_nextDirective? h
    Piece.plain before ++ d.piece (t.drop before.length) :: pieces tags d.rest
termination_by t.length

def spans (tags : TagSet) (t : Text) : List Span := Span.place 0 (tags.pieces t)

def segments (tags : TagSet) (t : Text) : List Segment := (tags.pieces t).map Piece.segment

end TagSet

end PromptDoc
