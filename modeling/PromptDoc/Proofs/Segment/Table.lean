/-
# PromptDoc.Proofs.Segment.Table — one line for each span

The table of a document shows a span a line: what kind of segment it is, where it stands and
a few words on what it says.  The words must not bring a line feed along, and each kind of
segment has its own reason not to.  A text and a note are quoted, and quoting writes a line
feed as two other characters (`newline_not_mem_quote`).  The paths of a block were read off
its lines, so none of them holds one (`IsPathLine`).

The value of a branch attribute is neither quoted nor a line: it may hold anything but a
double quote, and is shown as it stands.  So the table has a line for each span just if no
branch that is asked for holds a line feed (`tabulates_table_iff`), and a document that asks
for such a branch has a table that cannot be read (`not_tabulates_brokenBranch`).
-/
import PromptDoc.Segment.Table
import PromptDoc.Proofs.Segment.Partition

namespace PromptDoc

set_option autoImplicit false

namespace Text

/-! ## Quoted texts are on one line -/

/-- No digit is a line feed, in any base. -/
theorem newline_not_mem_toDigits {base : Nat} (many : 1 < base) (n : Nat) :
    '\n' ∉ Nat.toDigits base n := by
  have digit : ∀ d : Nat, '\n' ≠ d.digitChar := fun d => (Nat.digitChar_ne '\n' rfl).symm
  induction n using Nat.strong_induction_on with
  | _ n ih =>
      rw [Nat.toDigits_eq_if many]
      split
      · simp [digit]
      · rename_i more
        have smaller : n / base < n := Nat.div_lt_self (by omega) many
        simp [digit, ih _ smaller]

theorem newline_not_mem_ofNat (n : Nat) : '\n' ∉ Text.ofNat n :=
  newline_not_mem_toDigits (by decide) n

theorem newline_not_mem_quoteChar (c : Char) : '\n' ∉ quoteChar c := by
  unfold quoteChar
  split_ifs with nul tab return_ feed
  any_goals decide
  · have digits : '\n' ∉ Nat.toDigits 16 c.toNat := newline_not_mem_toDigits (by decide) c.toNat
    have opening : '\n' ∉ "\\u\x7b".toList := by decide
    simp only [codePointEscape, List.mem_append, opening, digits, List.mem_singleton]
    decide
  · have other : c ≠ '\n' := by simpa using feed
    simp [Ne.symm other]

/-- A quoted text is on one line. -/
theorem newline_not_mem_quote (t : Text) : '\n' ∉ quote t := by
  simp [quote, newline_not_mem_quoteChar]

theorem newline_not_mem_ellipsis (limit : Nat) {t : Text} (line : '\n' ∉ t) :
    '\n' ∉ ellipsis limit t := by
  unfold ellipsis
  split
  · exact line
  · have part : '\n' ∉ t.take (limit - 3) := fun held => line (List.mem_of_mem_take held)
    simp [part]

theorem newline_not_mem_padRight (width : Nat) {t : Text} (line : '\n' ∉ t) :
    '\n' ∉ padRight ' ' width t := by
  simp [padRight, line]

end Text

open Text

/-! ## What is said of a segment -/

theorem Segment.newline_not_mem_kind (segment : Segment) : '\n' ∉ segment.kind := by
  cases segment with
  | text => exact (by decide : '\n' ∉ "text".toList)
  | context => exact (by decide : '\n' ∉ "context".toList)
  | diff => exact (by decide : '\n' ∉ "diff".toList)
  | note => exact (by decide : '\n' ∉ "note".toList)

/-- What a segment is described by has a line feed just where the branch that it asks for has
one. -/
theorem TagSet.IsPiece.newline_not_mem_detail_iff {tags : TagSet} {p : Piece}
    (h : tags.IsPiece p) :
    '\n' ∉ p.segment.detail ↔ ∀ branch, p.segment = .diff (some branch) → '\n' ∉ branch := by
  have quoted : ∀ content, '\n' ∉ Segment.preview content := fun content =>
    newline_not_mem_ellipsis 48 (newline_not_mem_quote content)
  cases segment : p.segment with
  | text content => exact iff_of_true (quoted content) fun branch other => by cases other
  | note content => exact iff_of_true (quoted content) fun branch other => by cases other
  | context listed =>
      refine iff_of_true (fun inside => ?_) fun branch other => by cases other
      cases listed with
      | nil => exact absurd inside (by decide)
      | cons first others =>
          have comma : '\n' ∉ ", ".toList := by decide
          obtain ⟨path, among, held⟩ := exists_of_mem_intercalate comma inside
          exact (h.isPathLine segment among).line held
  | diff branch =>
      cases branch with
      | none => exact iff_of_true (by decide) fun branch other => by cases other
      | some branch =>
          have words : '\n' ∉ "branch ".toList := by decide
          show '\n' ∉ "branch ".toList ++ branch ↔ _
          rw [List.mem_append, or_iff_right words]
          simp

/-! ## The lines of a table -/

namespace Span

/-- What the line of a span begins with: the kind and the byte range, in columns. -/
def heading (s : Span) : Text :=
  Text.padRight ' ' 8 s.segment.kind ++ [' '] ++ Text.padRight ' ' 12 s.range ++ [' ']

theorem newline_not_mem_heading (s : Span) : '\n' ∉ s.heading := by
  have range : '\n' ∉ s.range := by
    have dots : '\n' ∉ "..".toList := by decide
    simp only [Span.range, List.mem_append, newline_not_mem_ofNat, dots, or_self, not_false_eq_true]
  simp [heading, newline_not_mem_padRight, s.segment.newline_not_mem_kind, range]

theorem table_eq (spans : List Span) :
    table spans = unlines (spans.map fun s : Span => s.heading ++ s.segment.detail) := by
  rw [unlines, List.flatMap_map]
  exact List.flatMap_congr fun s _ => by simp [row, heading]

/-- A line for each span, in their order, that begins with what the span is and where. -/
structure Tabulates (table : Text) (spans : List Span) : Prop where
  feeds : table.count '\n' = spans.length
  row : ∀ (i : Nat) (s : Span), spans[i]? = some s →
    ∃ line, table.lines[i]? = some line ∧ s.heading <+: line

theorem tabulates_iff {spans : List Span} :
    Tabulates (table spans) spans ↔ ∀ s ∈ spans, '\n' ∉ s.segment.detail := by
  have free : (∀ line ∈ spans.map fun s : Span => s.heading ++ s.segment.detail, '\n' ∉ line) ↔
      ∀ s ∈ spans, '\n' ∉ s.segment.detail := by
    simp [newline_not_mem_heading]
  rw [← free, table_eq]
  constructor
  · intro tabulates
    rw [← count_unlines_eq_length_iff, tabulates.feeds, List.length_map]
  · intro lines
    refine ⟨by rw [count_unlines_eq_length_iff.2 lines, List.length_map], fun i s here => ?_⟩
    have place : i < spans.length := (List.getElem?_eq_some_iff.1 here).1
    refine ⟨s.heading ++ s.segment.detail, ?_, List.prefix_append _ _⟩
    rw [lines_unlines lines, List.getElem?_append_left (by simpa using place), List.getElem?_map,
      here]
    rfl

end Span

/-- **The table of a document has a line for each span**, which begins with the kind and the byte
range of the span, whatever its texts, notes and path lists hold, just if no diff tag asks for a
branch with a line feed in its name. -/
theorem tabulates_table_iff (tags : TagSet) (t : Text) :
    Span.Tabulates (Span.table (tags.spans t)) (tags.spans t) ↔
      ∀ s ∈ tags.spans t, ∀ branch, s.segment = .diff (some branch) → '\n' ∉ branch := by
  rw [Span.tabulates_iff]
  refine forall₂_congr fun s inside => ?_
  exact (TagSet.isPiece_of_mem_spans inside).newline_not_mem_detail_iff

/-- A diff tag whose branch goes over two lines. -/
def brokenBranch : Text := "<diff branch=\"a\nb\"/>".toList

/-- Its one span takes up two lines. -/
theorem not_tabulates_brokenBranch :
    Span.table (TagSet.standard.spans brokenBranch) = "diff     0..20        branch a\nb\n".toList ∧
    ¬ Span.Tabulates (Span.table (TagSet.standard.spans brokenBranch))
      (TagSet.standard.spans brokenBranch) := by
  refine ⟨by decide +kernel, fun tabulates => ?_⟩
  have two : (Span.table (TagSet.standard.spans brokenBranch)).count '\n' = 2 := by decide +kernel
  have one : (TagSet.standard.spans brokenBranch).length = 1 := by decide +kernel
  exact absurd (two.symm.trans (tabulates.feeds.trans one)) (by decide)

end PromptDoc
