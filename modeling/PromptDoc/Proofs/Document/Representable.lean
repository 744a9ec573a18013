/-
# PromptDoc.Proofs.Document.Representable — the lists that a block can hold

A block is written with one line for each path, so what it can list are the paths that
stand as a line and do not close it: `Representable tag path`. `spans_renderBlock_iff`
says that a list is read back from the block written for it, under the spelling of the
block and with nothing beside it, exactly if every path of the list is of that kind.

A list that does not fit has no other way to come back: whatever a block of the spelling
lists is representable (`IsPiece.representable`), so two paths that cannot be listed
never make up for one another. The same fact says that a list that was read from a
document can be written again.
-/
import PromptDoc.Proofs.Document.Rendering
import PromptDoc.Proofs.Segment.Partition

namespace PromptDoc

set_option autoImplicit false

open Text

/-- A path that a block of the spelling can list: it stands on a line of its own and does not close
the block. -/
structure Representable (tag path : Text) : Prop extends IsPathLine path where
  unclosed : ¬ closeTag tag <:+: path

theorem representable_iff {tag path : Text} :
    Representable tag path ↔
      path ≠ [] ∧ Text.trim path = path ∧ '\n' ∉ path ∧ ¬ closeTag tag <:+: path := by
  constructor
  · rintro ⟨⟨nonempty, trimmed, line⟩, unclosed⟩
    exact ⟨nonempty, trimmed, line, unclosed⟩
  · rintro ⟨nonempty, trimmed, line, unclosed⟩
    exact ⟨⟨nonempty, trimmed, line⟩, unclosed⟩

instance (tag path : Text) : Decidable (Representable tag path) :=
  decidable_of_iff _ representable_iff.symm

namespace TagSet

variable {tags : TagSet} {tag : Text}

/-- What a block lists, it can list. -/
theorem IsPiece.representable {p : Piece} {listed : List Text} (h : tags.IsPiece p)
    (context : p.segment = .context listed) (spelled : p.tag = some tag) :
    ∀ path ∈ listed, Representable tag path := by
  obtain ⟨tag', inner, -, bare, rfl⟩ := h.exists_inner context
  obtain rfl := Option.some.inj spelled
  obtain rfl := Segment.context.inj context
  intro path inside
  refine ⟨isPathLine_of_mem inside, fun closed => ?_⟩
  exact bare (closed.trans (infix_of_mem_pathLines inside))

/-- The block written for a list, as the only span of its document. -/
def writtenSpan (tag : Text) (paths : List Text) : Span where
  segment := .context paths
  tag := some tag
  source := renderBlock tag paths
  start := 0

/-- A list of such paths is read back from the block written for it. -/
theorem spans_renderBlock {paths : List Text} (known : tag ∈ tags.context)
    (fits : ∀ p ∈ paths, Representable tag p) :
    tags.spans (renderBlock tag paths) = [writtenSpan tag paths] := by
  have begins := begins_renderBlock known (fun p listed => (fits p listed).toIsPathLine)
    fun p listed => (fits p listed).unclosed
  have piece : tags.IsPiece (writtenSpan tag paths).toPiece := .directive begins
  have alone : tags.pieces (renderBlock tag paths) = [(writtenSpan tag paths).toPiece] :=
    piece.pieces_source
  rw [spans, alone]
  rfl

/-- **The lists that a block can hold.**  A list is what the block written for it is read as, and the
block is all that is read, exactly if every path of the list stands as a line and does not close the
block; and whatever a block of the spelling lists in any document is read back from a block of that
spelling written for it. -/
theorem spans_renderBlock_iff (known : tag ∈ tags.context) (paths : List Text) :
    ((∃ span, tags.spans (renderBlock tag paths) = [span] ∧
        span.segment = .context paths ∧ span.tag = some tag) ↔
      ∀ p ∈ paths, p ≠ [] ∧ Text.trim p = p ∧ '\n' ∉ p ∧ ¬ closeTag tag <:+: p) ∧
    ∀ t, ∀ span ∈ tags.spans t, ∀ listed,
      span.segment = .context listed → span.tag = some tag →
        tags.spans (renderBlock tag listed) = [writtenSpan tag listed] := by
  simp only [← representable_iff]
  refine ⟨⟨?_, fun fits => ?_⟩, ?_⟩
  · rintro ⟨span, alone, context, spelled⟩
    have piece : tags.IsPiece span.toPiece :=
      isPiece_of_mem_spans (by rw [alone]; exact List.mem_singleton_self span)
    exact piece.representable context spelled
  · exact ⟨_, spans_renderBlock known fits, rfl, rfl⟩
  · intro t span inside listed context spelled
    exact spans_renderBlock known ((isPiece_of_mem_spans inside).representable context spelled)

/-- Closing tags of another spelling, blanks inside a path, and a path that looks like a tag. -/
def odd : List Text := ["</context>".toList, "a\t b.rs".toList, "<pb-context>".toList]

theorem spans_renderBlock_odd :
    "pb-context".toList ∈ TagSet.standard.context ∧
    (∃ span, TagSet.standard.spans (renderBlock "pb-context".toList odd) = [span] ∧
      span.segment = .context odd ∧ span.tag = some "pb-context".toList) ∧
    ¬ ∃ span, TagSet.standard.spans (renderBlock "context".toList odd) = [span] ∧
      span.segment = .context odd ∧ span.tag = some "context".toList := by
  have known : "pb-context".toList ∈ TagSet.standard.context := by decide
  have primary : "context".toList ∈ TagSet.standard.context := by decide
  refine ⟨known, (spans_renderBlock_iff known odd).1.2 (by decide), ?_⟩
  intro read
  have fits := (spans_renderBlock_iff primary odd).1.1 read _ List.mem_cons_self
  exact absurd fits (by decide)

end TagSet

end PromptDoc
