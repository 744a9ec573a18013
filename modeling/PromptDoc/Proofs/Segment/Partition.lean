/-
# PromptDoc.Proofs.Segment.Partition — the spans of a document partition it

`Partition t spans` says what an edit in place relies on: the spans cover the text
from its first byte to its last one without a gap or an overlap, each of them can
be cut out of the text at its byte range, and so can what stands before it and
behind it. `partition_spans` has it for every document and every tag set.

The places come from `Span.place` alone (`mem_place`, `isChain_place`,
`stop_of_getLast?_place`); the rest is what holds of the pieces.
-/
import PromptDoc.Proofs.Segment.Scan
import PromptDoc.Proofs.Text.Bytes

namespace PromptDoc

set_option autoImplicit false

open Text

/-- The spans are the text, cut into stretches that follow one another. -/
structure Partition (t : Text) (spans : List Span) : Prop where
  /-- Only the empty text has no spans. -/
  empty : spans = [] ↔ t = []
  first : ∀ s, spans.head? = some s → s.start = 0
  next : spans.IsChain fun a b => b.start = a.stop
  last : ∀ s, spans.getLast? = some s → s.stop = (Text.encode t).length
  nonempty : ∀ s ∈ spans, s.start < s.stop
  /-- A span is a slice of the text, which is cut at the start and at the end of characters. -/
  slice : ∀ s ∈ spans, t.slice? s.start s.stop = some s.source
  /-- The range of a span holds the bytes of its source. -/
  range : ∀ s ∈ spans, ((Text.encode t).drop s.start).take (s.stop - s.start) = Text.encode s.source
  /-- What stands before a span and what stands behind it are slices too. -/
  around : ∀ s ∈ spans, ∃ before behind, t.slice? 0 s.start = some before ∧
    t.slice? s.stop t.byteLength = some behind ∧ t = before ++ s.source ++ behind
  /-- The bytes of the sources are the bytes of the text. -/
  bytes : spans.flatMap (fun s => Text.encode s.source) = Text.encode t
  /-- Plain text is kept as it stands. -/
  content : ∀ s ∈ spans, ∀ content, s.segment = .text content → content = s.source
  tagged : ∀ s ∈ spans, s.tag = none ↔ ∃ content, s.segment = .text content
  /-- No text stands beside a text. -/
  apart : spans.IsChain fun a b =>
    ¬ ((∃ content, a.segment = .text content) ∧ ∃ content, b.segment = .text content)

namespace Span

/-! ## Places -/

/-- The places do not change the pieces. -/
@[simp] theorem map_toPiece_place (start : Nat) (ps : List Piece) :
    (place start ps).map Span.toPiece = ps := by
  induction ps generalizing start with
  | nil => rfl
  | cons p ps ih => simp only [place, List.map_cons, ih]

/-- A span starts behind the pieces before it. -/
theorem mem_place {start : Nat} {ps : List Piece} {s : Span} (h : s ∈ place start ps) :
    ∃ front back, ps = front ++ s.toPiece :: back ∧
      s.start = start + byteLength (Piece.join front) := by
  induction ps generalizing start with
  | nil => cases h
  | cons p ps ih =>
      rcases List.mem_cons.1 h with rfl | later
      · exact ⟨[], ps, rfl, rfl⟩
      · obtain ⟨front, back, rfl, place⟩ := ih later
        refine ⟨p :: front, back, rfl, ?_⟩
        rw [place, Piece.join_cons, byteLength_append, Nat.add_assoc]

theorem start_of_head?_place {start : Nat} {ps : List Piece} {s : Span}
    (h : (place start ps).head? = some s) : s.start = start := by
  cases ps with
  | nil => cases h
  | cons p ps =>
      cases h
      rfl

/-- Each span starts where the one before it stops. -/
theorem isChain_place (start : Nat) (ps : List Piece) :
    (place start ps).IsChain fun a b => b.start = a.stop := by
  induction ps generalizing start with
  | nil => exact .nil
  | cons p ps ih => exact List.isChain_cons.2 ⟨fun s first => start_of_head?_place first, ih _⟩

/-- The last span stops where the pieces end. -/
theorem stop_of_getLast?_place {start : Nat} {ps : List Piece} {s : Span}
    (h : (place start ps).getLast? = some s) : s.stop = start + byteLength (Piece.join ps) := by
  induction ps generalizing start with
  | nil => cases h
  | cons p ps ih =>
      cases ps with
      | nil =>
          obtain rfl : { p with start } = s := Option.some.inj h
          simp [stop]
      | cons q qs =>
          have later : (place (start + byteLength p.source) (q :: qs)).getLast? = some s := by
            rw [← h]
            exact List.getLast?_cons_cons.symm
          rw [ih later, Piece.join_cons (p := p), byteLength_append, Nat.add_assoc]

end Span

namespace TagSet

variable {tags : TagSet} {t : Text}

@[simp] theorem map_toPiece_spans (tags : TagSet) (t : Text) :
    (tags.spans t).map Span.toPiece = tags.pieces t :=
  Span.map_toPiece_place 0 _

theorem spans_eq_nil_iff : tags.spans t = [] ↔ t = [] := by
  have none_ : tags.pieces t = [] ↔ t = [] := pieces_eq_nil_iff
  rw [← none_, ← map_toPiece_spans, List.map_eq_nil_iff]

/-- A span among the pieces of its document. -/
theorem exists_pieces_of_mem_spans {s : Span} (h : s ∈ tags.spans t) :
    ∃ front back, tags.pieces t = front ++ s.toPiece :: back ∧
      t = Piece.join front ++ s.source ++ Piece.join back ∧
      s.start = byteLength (Piece.join front) := by
  obtain ⟨front, back, split, place⟩ := Span.mem_place h
  refine ⟨front, back, split, ?_, by rw [place, Nat.zero_add]⟩
  rw [← join_pieces tags t, split]
  simp

/-- A span is cut out of its document. -/
theorem slice?_of_mem_spans {s : Span} (h : s ∈ tags.spans t) :
    t.slice? s.start s.stop = some s.source := by
  obtain ⟨front, back, -, whole, place⟩ := exists_pieces_of_mem_spans h
  refine slice?_eq_some_iff.2 ⟨_, _, whole, place.symm, ?_⟩
  rw [byteLength_append, ← place]
  rfl

theorem isPiece_of_mem_spans {s : Span} (h : s ∈ tags.spans t) : tags.IsPiece s.toPiece :=
  isPiece_of_mem (t := t) (by
    rw [← map_toPiece_spans]
    exact List.mem_map_of_mem h)

theorem IsPiece.tag_eq_none_iff_text {p : Piece} (h : tags.IsPiece p) :
    p.tag = none ↔ ∃ content, p.segment = .text content := by
  rw [h.tag_eq_none_iff]
  cases p.segment <;> simp [Segment.isDirective]

/-- **The spans of a document partition it.** -/
theorem partition_spans (tags : TagSet) (t : Text) : Partition t (tags.spans t) where
  empty := spans_eq_nil_iff
  first := fun s => Span.start_of_head?_place
  next := Span.isChain_place 0 _
  last := fun s last => by
    rw [Span.stop_of_getLast?_place last, join_pieces, Nat.zero_add, length_encode]
  nonempty := fun s inside => by
    have := byteLength_pos (isPiece_of_mem_spans inside).source_ne_nil
    rw [Span.stop]
    omega
  slice := fun s inside => slice?_of_mem_spans inside
  range := fun s inside => encode_slice? (slice?_of_mem_spans inside)
  around := fun s inside => by
    obtain ⟨front, back, -, whole, place⟩ := exists_pieces_of_mem_spans inside
    refine ⟨Piece.join front, Piece.join back, ?_, ?_, whole⟩
    · refine slice?_eq_some_iff.2 ⟨[], s.source ++ Piece.join back, ?_, rfl, place.symm⟩
      rw [List.nil_append, ← List.append_assoc]
      exact whole
    · refine slice?_eq_some_iff.2 ⟨Piece.join front ++ s.source, [], ?_, ?_, ?_⟩
      · rw [List.append_nil]
        exact whole
      · rw [byteLength_append, ← place]
        rfl
      · rw [← whole]
  bytes := by
    rw [← congrArg Text.encode (join_pieces tags t), ← map_toPiece_spans, Piece.join, Text.encode,
      List.flatMap_map, List.flatMap_assoc]
    rfl
  content := fun s inside content => (isPiece_of_mem_spans inside).content_eq
  tagged := fun s inside => (isPiece_of_mem_spans inside).tag_eq_none_iff_text
  apart := by
    have chain := (scans_pieces tags t).apart
    rw [← map_toPiece_spans, List.isChain_map] at chain
    refine List.IsChain.imp_of_mem_imp (fun a b insideA insideB tagged => ?_) chain
    rintro ⟨textA, textB⟩
    rcases tagged with tagged | tagged
    · exact tagged ((isPiece_of_mem_spans insideA).tag_eq_none_iff_text.2 textA)
    · exact tagged ((isPiece_of_mem_spans insideB).tag_eq_none_iff_text.2 textB)

end TagSet

end PromptDoc
