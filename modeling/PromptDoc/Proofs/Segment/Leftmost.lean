/-
# PromptDoc.Proofs.Segment.Leftmost — the directives of a document, from the left

`TagSet.StartsAt` says that a directive starts at a byte of a text, with all of the
text that follows in view. `TagSet.Leftmost` is the list of directives that a
cursor meets: from the cursor on, the first byte at which a directive starts gives
the next one, and the cursor moves to its end.

`leftmost_iff_spans` says that the spans of a document hold this list of
directives and no other, and that no directive starts inside a span of text.
-/
import PromptDoc.Proofs.Segment.Partition

namespace PromptDoc

set_option autoImplicit false

open Text

/-- A directive starts at byte `i` of the text. -/
def TagSet.StartsAt (tags : TagSet) (t : Text) (i : Nat) (d : Directive) : Prop :=
  ∃ front back, t = front ++ back ∧ byteLength front = i ∧ tags.Begins back d

/-- The directives of a text from byte `cursor` on, each the first one that starts behind the one
before it. -/
inductive TagSet.Leftmost (tags : TagSet) (t : Text) : Nat → List Span → Prop
  | done {cursor : Nat} (quiet : ∀ i d, cursor ≤ i → ¬ tags.StartsAt t i d) :
      tags.Leftmost t cursor []
  | next {cursor : Nat} {span : Span} {d : Directive} {spans : List Span}
      (ahead : cursor ≤ span.start)
      (starts : tags.StartsAt t span.start d)
      (first : ∀ i d', cursor ≤ i → i < span.start → ¬ tags.StartsAt t i d')
      (ends : span.stop + byteLength d.rest = byteLength t)
      (source : t.slice? span.start span.stop = some span.source)
      (segment : span.segment = d.segment)
      (tag : span.tag = some d.tag)
      (more : tags.Leftmost t span.stop spans) : tags.Leftmost t cursor (span :: spans)

namespace TagSet

variable {tags : TagSet} {t : Text}

/-! ## One list at most -/

/-- One directive at most starts at a byte. -/
theorem StartsAt.unique {i : Nat} {d d' : Directive} (h : tags.StartsAt t i d)
    (h' : tags.StartsAt t i d') : d = d' := by
  obtain ⟨front, back, rfl, size, begins⟩ := h
  obtain ⟨front', back', whole, size', begins'⟩ := h'
  obtain ⟨-, rfl⟩ := append_inj_of_byteLength whole (size.trans size'.symm)
  exact begins.unique begins'

theorem Leftmost.unique {cursor : Nat} {spans spans' : List Span}
    (h : tags.Leftmost t cursor spans) (h' : tags.Leftmost t cursor spans') : spans = spans' := by
  induction h generalizing spans' with
  | done quiet =>
      cases h' with
      | done => rfl
      | next ahead starts => exact absurd starts (quiet _ _ ahead)
  | @next cursor span d spans ahead starts first ends source segment tag more ih =>
      cases h' with
      | done quiet => exact absurd starts (quiet _ _ ahead)
      | @next _ span' d' _ ahead' starts' first' ends' source' segment' tag' more' =>
          have start : span.start = span'.start := by
            rcases Nat.lt_trichotomy span.start span'.start with less | same | more
            · exact absurd starts (first' _ _ ahead less)
            · exact same
            · exact absurd starts' (first _ _ ahead' more)
          have same : d = d' := starts.unique (start ▸ starts')
          subst same
          have stop : span.stop = span'.stop := by omega
          have same : span = span' := by
            obtain ⟨⟨segment₁, tag₁, source₁⟩, start₁⟩ := span
            obtain ⟨⟨segment₂, tag₂, source₂⟩, start₂⟩ := span'
            rw [stop, start, source'] at source
            simp_all
          rw [same, ih (same ▸ more')]

/-! ## The spans are that list -/

/-- No directive starts where the text is quiet. -/
theorem Quiet.not_startsAt {front before rest : Text} (quiet : tags.Quiet before rest) {i : Nat}
    (from_ : byteLength front ≤ i) (to_ : i < byteLength (front ++ before)) (d : Directive) :
    ¬ tags.StartsAt (front ++ (before ++ rest)) i d := by
  rintro ⟨a, b, whole, rfl, begins⟩
  obtain ⟨between, rfl, inner⟩ := append_of_byteLength_le whole from_
  rw [byteLength_append, byteLength_append] at to_
  have shorter : byteLength between ≤ byteLength before := by omega
  obtain ⟨back, rfl, rfl⟩ := append_of_byteLength_le inner.symm shorter
  refine quiet back (List.suffix_append _ _) ?_ d begins
  rintro rfl
  rw [List.append_nil] at to_
  omega

/-- No directive starts where the text is over. -/
theorem not_startsAt_of_le {i : Nat} (beyond : byteLength t ≤ i) (d : Directive) :
    ¬ tags.StartsAt t i d := by
  rintro ⟨front, back, rfl, rfl, begins⟩
  have nonempty : back ≠ [] := by
    rintro rfl
    exact not_begins_nil begins
  have := byteLength_pos nonempty
  rw [byteLength_append] at beyond
  omega

def directives (spans : List Span) : List Span := spans.filter (·.segment.isDirective)

theorem directives_place_plain (start : Nat) (before : Text) (ps : List Piece) :
    directives (Span.place start (Piece.plain before ++ ps)) =
      directives (Span.place (start + byteLength before) ps) := by
  cases before with
  | nil => rfl
  | cons c cs => simp [directives, Span.place, Segment.isDirective]

theorem Scans.leftmost {u : Text} {ps : List Piece} (scans : tags.Scans u ps) (front : Text) :
    tags.Leftmost (front ++ u) (byteLength front)
      (directives (Span.place (byteLength front) ps)) := by
  induction scans generalizing front with
  | @plain u quiet =>
      have none_ : directives (Span.place (byteLength front) (Piece.plain u)) = [] := by
        simpa [directives, Span.place] using directives_place_plain (byteLength front) u []
      rw [none_]
      refine .done fun i d from_ => ?_
      rcases Nat.lt_or_ge i (byteLength (front ++ u)) with inside | beyond
      · simpa using quiet.not_startsAt from_ inside d
      · exact not_startsAt_of_le beyond d
  | @directive before source rest tag segment ps quiet begins more ih =>
      have place : byteLength front + byteLength before = byteLength (front ++ before) :=
        (byteLength_append _ _).symm
      have stop : byteLength (front ++ before) + byteLength source =
          byteLength (front ++ before ++ source) := (byteLength_append _ _).symm
      have later := ih (front ++ before ++ source)
      simp only [List.append_assoc] at later
      rw [directives_place_plain, place, Span.place, directives,
        List.filter_cons_of_pos (by exact begins.isDirective)]
      refine .next (d := ⟨tag, segment, rest⟩) ?_ ?_ ?_ ?_ ?_ rfl rfl ?_
      · exact place ▸ Nat.le_add_right _ _
      · exact ⟨front ++ before, source ++ rest, by simp, rfl, begins⟩
      · exact fun i d from_ to_ => quiet.not_startsAt from_ to_ d
      · simp only [Span.stop, byteLength_append]
        omega
      · exact slice?_eq_some_iff.2 ⟨front ++ before, rest, by simp, rfl, stop.symm⟩
      · rw [Span.stop, stop]
        simpa [directives, stop] using later

/-- No directive starts inside a piece of text. -/
theorem Scans.quiet {u : Text} {ps : List Piece} (scans : tags.Scans u ps) {a b : List Piece}
    {p : Piece} (split : ps = a ++ p :: b) (text : p.tag = none) :
    tags.Quiet p.source (Piece.join b) := by
  induction scans generalizing a with
  | @plain u quiet =>
      cases u with
      | nil => simp at split
      | cons c cs =>
          rw [Piece.plain_cons, eq_comm, List.append_eq_singleton_iff] at split
          rcases split with ⟨-, single⟩ | ⟨-, none_⟩
          · cases single
            exact quiet
          · cases none_
  | @directive before source rest tag segment ps quiet begins more ih =>
      have behind : ∀ a, { segment, tag := some tag, source } :: ps = a ++ p :: b →
          tags.Quiet p.source (Piece.join b) := by
        intro a split
        cases a with
        | nil =>
            cases split
            cases text
        | cons q qs => exact ih (List.cons.inj split).2
      cases before with
      | nil => exact behind a split
      | cons c cs =>
          cases a with
          | nil =>
              cases split
              simpa [more.join] using quiet
          | cons q qs => exact behind qs (List.cons.inj split).2

/-- **Grammar exactness.** The directives among the spans of a document are the leftmost ones that
start from its first byte on, and no directive starts inside a span of text. -/
theorem leftmost_iff_spans (tags : TagSet) (t : Text) :
    (∀ spans, tags.Leftmost t 0 spans ↔ spans = directives (tags.spans t)) ∧
      ∀ s ∈ tags.spans t, s.segment.isDirective = false →
        ∀ i, s.start ≤ i → i < s.stop → ∀ d, ¬ tags.StartsAt t i d := by
  constructor
  · have found : tags.Leftmost t 0 (directives (tags.spans t)) := (scans_pieces tags t).leftmost []
    exact fun spans => ⟨fun other => other.unique found, fun same => same ▸ found⟩
  · intro s inside plain i from_ to_ d
    obtain ⟨front, back, split, whole, place⟩ := exists_pieces_of_mem_spans inside
    have text : s.tag = none := (isPiece_of_mem_spans inside).tag_eq_none_iff.2 plain
    have quiet := (scans_pieces tags t).quiet split text
    rw [whole, List.append_assoc]
    refine quiet.not_startsAt (place ▸ from_) ?_ d
    rw [byteLength_append, ← place]
    exact to_

end TagSet

end PromptDoc
