/-
# PromptDoc.Proofs.Segment.Locality — a document is read half by half

Where one span of a document stops and the next one starts, the document can be cut, and
each half is read as the spans that it held (`spans_boundary_iff`). Two facts carry this:
a directive does not depend on what follows it (`Begins.local`), and a stretch in which no
directive starts has none when less follows it (`Quiet.of_append_append`), so the derivation
of the pieces falls into two (`Scans.of_append`).

No other cut will do: a cut inside a span leaves two halves whose spans stop where none of
the document does.
-/
import PromptDoc.Proofs.Segment.Partition

namespace PromptDoc

set_option autoImplicit false

open Text

namespace Span

/-- The span, some bytes further on. -/
def shift (bytes : Nat) (s : Span) : Span := { s with start := s.start + bytes }

/-- A span starts or stops at the byte. -/
def IsBoundary (spans : List Span) (c : Nat) : Prop := ∃ s ∈ spans, s.start = c ∨ s.stop = c

/-- Pieces that are placed further on are their spans further on. -/
theorem map_shift_place (bytes start : Nat) (ps : List Piece) :
    (place start ps).map (shift bytes) = place (start + bytes) ps := by
  induction ps generalizing start with
  | nil => rfl
  | cons p ps ih => simp only [place, List.map_cons, shift, ih, Nat.add_right_comm]

theorem place_append (start : Nat) (ps qs : List Piece) :
    place start (ps ++ qs) = place start ps ++ place (start + byteLength (Piece.join ps)) qs := by
  induction ps generalizing start with
  | nil => rfl
  | cons p ps ih =>
      simp only [List.cons_append, place, ih, Piece.join_cons, byteLength_append, Nat.add_assoc]

end Span

namespace TagSet

variable {tags : TagSet} {t : Text}

/-! ## The pieces of a half -/

/-- Two halves of plain text and more: one of them is empty, or the text is in the first. -/
theorem append_eq_plain_append {before : Text} {ps qs rest : List Piece}
    (whole : ps ++ qs = Piece.plain before ++ rest) :
    ps = [] ∧ qs = Piece.plain before ++ rest ∨
      ∃ more, ps = Piece.plain before ++ more ∧ rest = more ++ qs := by
  cases before with
  | nil => exact Or.inr ⟨ps, rfl, whole.symm⟩
  | cons c cs =>
      cases ps with
      | nil => exact Or.inl ⟨rfl, whole⟩
      | cons p more =>
          obtain ⟨rfl, behind⟩ := List.cons.inj whole
          exact Or.inr ⟨more, rfl, behind.symm⟩

/-- A derivation falls into two wherever its pieces are parted. -/
theorem Scans.of_append {ps qs : List Piece} (scans : tags.Scans t (ps ++ qs)) :
    tags.Scans (Piece.join ps) ps ∧ tags.Scans (Piece.join qs) qs := by
  have nothing : tags.Scans (Piece.join []) [] := .plain (quiet_nil _)
  have all := scans.join
  generalize whole : ps ++ qs = pieces at scans all
  induction scans generalizing ps with
  | @plain t quiet =>
      rw [← List.append_nil (Piece.plain t)] at whole
      rcases append_eq_plain_append whole with ⟨rfl, rfl⟩ | ⟨more, rfl, empty⟩
      · rw [List.append_nil, Piece.join_plain]
        exact ⟨nothing, .plain quiet⟩
      · obtain ⟨rfl, rfl⟩ := List.append_eq_nil_iff.1 empty.symm
        rw [List.append_nil, Piece.join_plain]
        exact ⟨.plain quiet, nothing⟩
  | @directive before source rest tag segment behind quiet begins more ih =>
      obtain rfl := more.join
      rcases append_eq_plain_append whole with ⟨rfl, rfl⟩ | ⟨later, rfl, split⟩
      · rw [all]
        exact ⟨nothing, .directive quiet begins more⟩
      · cases later with
        | nil =>
            -- The cut is right before the directive.
            obtain rfl := split.symm
            have directive : tags.Scans ([] ++ (source ++ Piece.join behind)) (Piece.plain [] ++ _) :=
              .directive (quiet_nil _) begins more
            rw [List.append_nil, Piece.join_plain, Piece.join_cons]
            exact ⟨.plain quiet.of_append, directive⟩
        | cons p ps =>
            -- The directive is in the first half, and what follows it is parted further on.
            have behind_ : behind = ps ++ qs := (List.cons.inj split).2
            obtain rfl := (List.cons.inj split).1
            obtain ⟨front, back⟩ := ih behind_.symm more.join
            rw [behind_, Piece.join_append, ← List.append_assoc] at quiet
            rw [Piece.join_append, Piece.join_plain, Piece.join_cons]
            exact ⟨.directive quiet.of_append_append (begins.local _) front, back⟩

/-- Pieces that stand together in a document are read on their own as they are in it. -/
theorem pieces_join_of_append {ps qs : List Piece} (split : tags.pieces t = ps ++ qs) :
    tags.pieces (Piece.join ps) = ps ∧ tags.pieces (Piece.join qs) = qs := by
  have scans := scans_pieces tags t
  rw [split] at scans
  exact scans.of_append.imp pieces_of_scans pieces_of_scans

/-! ## The edges -/

/-- At a boundary the pieces are parted. -/
theorem exists_append_of_isBoundary {c : Nat} (boundary : Span.IsBoundary (tags.spans t) c) :
    ∃ ps qs, tags.pieces t = ps ++ qs ∧ byteLength (Piece.join ps) = c := by
  obtain ⟨s, inside, edge⟩ := boundary
  obtain ⟨front, back, split, -, start⟩ := exists_pieces_of_mem_spans inside
  rcases edge with rfl | rfl
  · exact ⟨front, s.toPiece :: back, split, start.symm⟩
  · refine ⟨front ++ [s.toPiece], back, by simp [split], ?_⟩
    rw [Piece.join_append, byteLength_append, ← start, Span.stop, Piece.join_cons, Piece.join_nil,
      List.append_nil]

/-- The end of a text that is not empty is a boundary of its spans. -/
theorem isBoundary_byteLength (nonempty : t ≠ []) :
    Span.IsBoundary (tags.spans t) (byteLength t) := by
  have some_ : tags.spans t ≠ [] := spans_eq_nil_iff.not.2 nonempty
  have last := List.getLast?_eq_some_getLast some_
  refine ⟨_, List.mem_of_getLast? last, Or.inr ?_⟩
  rw [Span.stop_of_getLast?_place last, join_pieces, Nat.zero_add]

/-- The start of a text that is not empty is a boundary of its spans. -/
theorem isBoundary_zero (nonempty : t ≠ []) : Span.IsBoundary (tags.spans t) 0 := by
  have some_ : tags.spans t ≠ [] := spans_eq_nil_iff.not.2 nonempty
  have first := List.head?_eq_some_head some_
  exact ⟨_, List.mem_of_head? first, Or.inl (Span.start_of_head?_place first)⟩

theorem spans_append {front back : Text}
    (halves : tags.pieces (front ++ back) = tags.pieces front ++ tags.pieces back) :
    tags.spans (front ++ back) =
      tags.spans front ++ (tags.spans back).map (Span.shift (byteLength front)) := by
  rw [spans, halves, Span.place_append, join_pieces, spans, spans, Span.map_shift_place,
    Nat.zero_add]

/-- **Segmentation is local.** -/
theorem spans_boundary_iff (tags : TagSet) (t : Text) :
    (∀ c, Span.IsBoundary (tags.spans t) c ↔
      t ≠ [] ∧ ∃ front back, t.splitAt? c = some (front, back) ∧
        tags.spans t = tags.spans front ++ (tags.spans back).map (Span.shift c)) ∧
    ∀ s ∈ tags.spans t, tags.spans s.source = [{ s with start := 0 }] := by
  refine ⟨fun c => ⟨fun boundary => ?_, ?_⟩, fun s inside => ?_⟩
  · obtain ⟨ps, qs, split, rfl⟩ := exists_append_of_isBoundary boundary
    obtain ⟨front, back⟩ := pieces_join_of_append split
    have whole : t = Piece.join ps ++ Piece.join qs := by
      rw [← Piece.join_append, ← split, join_pieces]
    refine ⟨?_, Piece.join ps, Piece.join qs, splitAt?_eq_some_iff.2 ⟨whole, rfl⟩, ?_⟩
    · rintro rfl
      obtain ⟨s, inside, -⟩ := boundary
      simp [spans, pieces_nil, Span.place] at inside
    · rw [whole] at split ⊢
      exact spans_append (by rw [split, front, back])
  · rintro ⟨nonempty, front, back, cut, halves⟩
    obtain ⟨rfl, rfl⟩ := splitAt?_eq_some_iff.1 cut
    by_cases empty : front = []
    · rw [empty]
      exact isBoundary_zero (by rwa [empty] at nonempty)
    · obtain ⟨s, inside, edge⟩ := @isBoundary_byteLength tags _ empty
      refine ⟨s, ?_, edge⟩
      rw [halves]
      exact List.mem_append_left _ inside
  · have single := (isPiece_of_mem_spans inside).pieces_source
    rw [spans, single]
    rfl

end TagSet

end PromptDoc
