/-
# PromptDoc.Proofs.Segment.PathLines — the paths of a block, line by line

The inside of a context block lists one path a line (`pathLines`). Reading it
trims the inside first, which changes nothing (`parsePaths_eq`): the blank
stretches at its ends only make blank lines or widen the first and the last one.

`pathLines_unlines_eq` is the way back: what is written on lines is read text by text,
and paths that can stand as lines are read as they were written (`pathLines_unlines`).
`parsePaths_linewise` puts the two together for the paths of a block.
-/
import PromptDoc.Segment.Directive
import PromptDoc.Proofs.Text.Blanks

namespace PromptDoc

set_option autoImplicit false

open Text

/-- The lines of a text that are not blank, each without the blanks around it. -/
def pathLines (inner : Text) : List Text := (inner.lines.map Text.trim).filter (· ≠ [])

/-- A path that can stand as a line of a block. -/
structure IsPathLine (path : Text) : Prop where
  nonempty : path ≠ []
  trimmed : Text.trim path = path
  line : '\n' ∉ path

theorem pathLines_append_newline (a b : Text) :
    pathLines (a ++ '\n' :: b) = pathLines a ++ pathLines b := by
  simp only [pathLines, lines_append_newline, List.map_append, List.filter_append]

theorem pathLines_line {line : Text} (free : '\n' ∉ line) :
    pathLines line = if Text.trim line = [] then [] else [Text.trim line] := by
  rw [pathLines, lines_of_not_mem free]
  by_cases empty : Text.trim line = [] <;> simp [empty]

theorem pathLines_nil : pathLines [] = [] := by
  rw [pathLines_line List.not_mem_nil, if_pos (trim_eq_nil_iff.2 blank_nil)]

/-- Blanks in front of a text add no path and change none. -/
theorem pathLines_append_left {blanks : Text} (blank : Blank blanks) (t : Text) :
    pathLines (blanks ++ t) = pathLines t := by
  induction blanks with
  | nil => rfl
  | cons c cs ih =>
      obtain ⟨first, others⟩ := blank_cons.1 blank
      rw [List.cons_append, ← ih others]
      generalize cs ++ t = u
      have widen : ∀ line, Text.trim (c :: line) = Text.trim line := fun line => by
        simpa using trim_surround (a := [c]) (blank_cons.2 ⟨first, blank_nil⟩) blank_nil line
      by_cases feed : c = '\n'
      · subst feed
        have apart := pathLines_append_newline [] u
        rwa [pathLines_nil, List.nil_append, List.nil_append] at apart
      · induction u using lineInduction with
        | last line free =>
            have free' : '\n' ∉ c :: line := by simp [Ne.symm feed, free]
            rw [pathLines_line free', pathLines_line free, widen]
        | step line rest free _ =>
            have free' : '\n' ∉ c :: line := by simp [Ne.symm feed, free]
            rw [← List.cons_append, pathLines_append_newline, pathLines_append_newline,
              pathLines_line free', pathLines_line free, widen]

/-- Blanks behind a text add no path and change none. -/
theorem pathLines_append_right {blanks : Text} (blank : Blank blanks) (t : Text) :
    pathLines (t ++ blanks) = pathLines t := by
  induction t using lineInduction with
  | last line free =>
      induction blanks using lineInduction with
      | last b bare =>
          have bare' : '\n' ∉ line ++ b := by simp [free, bare]
          have same : Text.trim (line ++ b) = Text.trim line := by
            simpa using trim_surround blank_nil blank line
          rw [pathLines_line bare', pathLines_line free, same]
      | step b rest bare _ =>
          obtain ⟨near, far⟩ := blank_append.1 blank
          have bare' : '\n' ∉ line ++ b := by simp [free, bare]
          have same : Text.trim (line ++ b) = Text.trim line := by
            simpa using trim_surround blank_nil near line
          have nothing : pathLines rest = [] := by
            simpa [pathLines_nil] using pathLines_append_left (blank_cons.1 far).2 []
          rw [← List.append_assoc, pathLines_append_newline, nothing, List.append_nil,
            pathLines_line bare', pathLines_line free, same]
  | step line rest free ih =>
      rw [List.append_assoc, List.cons_append, pathLines_append_newline, ih,
        pathLines_append_newline]

/-- The paths of a block are its lines that are not blank, trimmed. -/
theorem parsePaths_eq (inner : Text) : parsePaths inner = pathLines inner := by
  obtain ⟨-, a, b, blankA, blankB, whole⟩ := trim_spec inner
  have same : pathLines inner = pathLines (Text.trim inner) := by
    nth_rewrite 1 [whole]
    rw [pathLines_append_right blankB, pathLines_append_left blankA]
  rw [same]
  rfl

/-! ## Paths that were read and paths that are written -/

theorem isPathLine_of_mem {inner path : Text} (h : path ∈ pathLines inner) : IsPathLine path := by
  simp only [pathLines, List.mem_filter, List.mem_map, decide_eq_true_eq] at h
  obtain ⟨⟨line, inside, rfl⟩, nonempty⟩ := h
  refine ⟨nonempty, trim_trim line, fun feed => ?_⟩
  exact newline_not_mem_of_mem_lines inside ((trim_isInfix line).subset feed)

theorem infix_of_mem_pathLines {inner path : Text} (h : path ∈ pathLines inner) :
    path <:+: inner := by
  simp only [pathLines, List.mem_filter, List.mem_map] at h
  obtain ⟨⟨line, inside, rfl⟩, _⟩ := h
  exact (trim_isInfix line).trans (infix_of_mem_lines inside)

/-- Every character that is no blank stands in a path. -/
theorem exists_mem_pathLines {inner : Text} {c : Char} (inside : c ∈ inner)
    (solid : isBlank c = false) : ∃ path ∈ pathLines inner, c ∈ path := by
  have kept : ∀ line, '\n' ∉ line → c ∈ line → ∃ path ∈ pathLines line, c ∈ path := by
    intro line free here
    have held := mem_trim here solid
    refine ⟨Text.trim line, ?_, held⟩
    rw [pathLines_line free, if_neg (List.ne_nil_of_mem held), List.mem_singleton]
  induction inner using lineInduction with
  | last line free => exact kept line free inside
  | step line rest free ih =>
      rw [pathLines_append_newline]
      rcases List.mem_append.1 inside with here | later
      · obtain ⟨path, listed, held⟩ := kept line free here
        exact ⟨path, List.mem_append_left _ listed, held⟩
      · have other : c ≠ '\n' := by
          rintro rfl
          exact absurd solid (by decide)
        obtain ⟨path, listed, held⟩ := ih (by simpa [other] using later)
        exact ⟨path, List.mem_append_right _ listed, held⟩

/-- Only a blank text has no paths. -/
theorem pathLines_eq_nil_iff {inner : Text} : pathLines inner = [] ↔ Blank inner := by
  constructor
  · intro none_ c inside
    by_contra solid
    obtain ⟨path, listed, -⟩ := exists_mem_pathLines inside (by simpa using solid)
    rw [none_] at listed
    cases listed
  · intro blank
    simpa [pathLines_nil] using pathLines_append_left blank []

theorem IsPathLine.pathLines_eq {path : Text} (fits : IsPathLine path) :
    pathLines path = [path] := by
  rw [pathLines_line fits.line, fits.trimmed, if_neg fits.nonempty]

/-- Whatever is written on lines is read text by text. -/
theorem pathLines_unlines_eq (texts : List Text) :
    pathLines (unlines texts) = texts.flatMap pathLines := by
  induction texts with
  | nil => exact pathLines_nil
  | cons t ts ih => rw [unlines_cons, pathLines_append_newline, ih, List.flatMap_cons]

/-- Paths that can stand as lines are read as they were written. -/
theorem flatMap_pathLines {paths : List Text} (fits : ∀ p ∈ paths, IsPathLine p) :
    paths.flatMap pathLines = paths := by
  induction paths with
  | nil => rfl
  | cons p ps ih =>
      obtain ⟨first, others⟩ := List.forall_mem_cons.1 fits
      rw [List.flatMap_cons, first.pathLines_eq, ih others, List.singleton_append]

theorem pathLines_unlines {paths : List Text} (fits : ∀ p ∈ paths, IsPathLine p) :
    pathLines (unlines paths) = paths := by
  rw [pathLines_unlines_eq, flatMap_pathLines fits]

/-! ## Line by line -/

/-- A text with a carriage return before every line feed. -/
def withReturns (t : Text) : Text := t.flatMap fun c => if c = '\n' then ['\r', '\n'] else [c]

theorem withReturns_append (a b : Text) : withReturns (a ++ b) = withReturns a ++ withReturns b :=
  List.flatMap_append

theorem withReturns_of_not_mem {line : Text} (free : '\n' ∉ line) : withReturns line = line := by
  induction line with
  | nil => rfl
  | cons c cs ih =>
      obtain ⟨other, later⟩ := List.ne_and_not_mem_of_not_mem_cons free
      rw [withReturns, List.flatMap_cons, if_neg (Ne.symm other)]
      exact congrArg (c :: ·) (ih later)

/-- A carriage return before a line feed is a blank at the end of a line. -/
theorem pathLines_withReturns (t : Text) : pathLines (withReturns t) = pathLines t := by
  induction t using lineInduction with
  | last line free => rw [withReturns_of_not_mem free]
  | step line rest free ih =>
      have ends : Blank ['\r'] := blank_cons.2 ⟨by decide, blank_nil⟩
      have broken : withReturns (line ++ '\n' :: rest) =
          (line ++ ['\r']) ++ '\n' :: withReturns rest := by
        rw [withReturns_append, withReturns_of_not_mem free]
        simp [withReturns]
      rw [broken, pathLines_append_newline, pathLines_append_right ends, ih,
        pathLines_append_newline]

/-- Paths that can stand as lines are read as they were joined. -/
theorem pathLines_intercalate {paths : List Text} (fits : ∀ p ∈ paths, IsPathLine p) :
    pathLines (['\n'].intercalate paths) = paths := by
  by_cases none_ : paths = []
  · rw [none_, List.intercalate_nil, pathLines_nil]
  · rw [← pathLines_append_right blank_newline, intercalate_newline_append none_,
      pathLines_unlines fits]

/-- **The paths of a block are read line by line.**  They are its lines that are not blank, trimmed,
whatever blanks stand around all of them; so what two texts list, they list with a line feed between
them, in their order.  It makes no difference whether lines end in a line feed or in a carriage
return and a line feed.  Each path can stand as a line, and paths joined by line feeds are read as
they are. -/
theorem parsePaths_linewise :
    (∀ t, parsePaths t = (t.lines.map Text.trim).filter (· ≠ [])) ∧
    (∀ a b, parsePaths (a ++ '\n' :: b) = parsePaths a ++ parsePaths b) ∧
    ∀ t, parsePaths (withReturns t) = parsePaths t ∧
      (∀ path ∈ parsePaths t, path ≠ [] ∧ Text.trim path = path ∧ '\n' ∉ path) ∧
      parsePaths (['\n'].intercalate (parsePaths t)) = parsePaths t := by
  refine ⟨parsePaths_eq, ?_⟩
  simp only [parsePaths_eq]
  refine ⟨pathLines_append_newline, fun t => ⟨pathLines_withReturns t, fun path listed => ?_, ?_⟩⟩
  · obtain ⟨nonempty, trimmed, line⟩ := isPathLine_of_mem listed
    exact ⟨nonempty, trimmed, line⟩
  · exact pathLines_intercalate fun path => isPathLine_of_mem

end PromptDoc
