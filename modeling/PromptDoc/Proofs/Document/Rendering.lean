/-
# PromptDoc.Proofs.Document.Rendering — a context block written anew

`renderBlock` writes a block with one line for each path, and `begins_renderBlock`
says that the block is read as it was meant whenever its paths can stand as lines
and none of them closes it.

A block that is written anew lists the paths of the old one on lines without the
blanks around them, so what stands in the new listing stood in the old block
already (`endsTag_of_unlines`, `endsValue_of_unlines`); a path without `>` that is
added behind them ends nothing either. `screens_renderBlock` puts this together.
-/
import PromptDoc.Document.Paths
import PromptDoc.Proofs.Document.Replace

namespace PromptDoc

set_option autoImplicit false

open Text

theorem renderBlock_eq (tag : Text) (paths : List Text) :
    renderBlock tag paths = openTag tag ++ '\n' :: unlines paths ++ closeTag tag := by
  simp [renderBlock, unlines]

/-- What is written on one line and stands among lines stands in one of them. -/
theorem infix_unlines_append {needle b : Text} {ls : List Text} (line : '\n' ∉ needle)
    (h : needle <:+: unlines ls ++ b) : (∃ l ∈ ls, needle <:+: l) ∨ needle <:+: b := by
  induction ls with
  | nil => exact Or.inr h
  | cons l ls ih =>
      rw [unlines_cons, List.append_assoc, List.cons_append] at h
      rcases infix_append_cons line h with here | later
      · exact Or.inl ⟨l, List.mem_cons_self, here⟩
      · rcases ih later with ⟨m, inside, stands⟩ | behind
        · exact Or.inl ⟨m, List.mem_cons_of_mem _ inside, stands⟩
        · exact Or.inr behind

/-- A block is read as it was written, if its paths are lines that do not close it. -/
theorem TagSet.begins_renderBlock {tags : TagSet} {tag : Text} {paths : List Text}
    (known : tag ∈ tags.context) (lines : ∀ p ∈ paths, IsPathLine p)
    (bare : ∀ p ∈ paths, ¬ closeTag tag <:+: p) :
    tags.Begins (renderBlock tag paths) ⟨tag, .context paths, []⟩ := by
  have name := isName_of_mem_context known
  have read : pathLines ('\n' :: unlines paths) = paths := by
    rw [← List.singleton_append, pathLines_append_left blank_newline, pathLines_unlines lines]
  have block : Block tag (renderBlock tag paths) ('\n' :: unlines paths) [] := by
    refine (block_iff name).2 ⟨by rw [renderBlock_eq, List.append_nil], fun closed => ?_⟩
    have line := newline_not_mem_closeTag name
    rcases infix_append_cons (a := []) line closed with front | inside
    · simp [closeTag] at front
    · rw [← List.append_nil (unlines paths)] at inside
      rcases infix_unlines_append line inside with ⟨p, listed, stands⟩ | behind
      · exact bare p listed stands
      · simp [closeTag] at behind
  rw [← read] at block ⊢
  simpa only [read] using TagSet.Begins.context known block

/-! ## What the lines of a listing end -/

theorem not_endsTag_newline : ¬ EndsTag ['\n'] := by
  rintro ⟨blanks, rest, -, whole⟩
  have inside : '/' ∈ ['\n'] := by simp [whole]
  simp at inside

theorem not_endsValue_of_not_mem {t : Text} (quoted : '\x22' ∉ t) : ¬ EndsValue t := by
  rintro ⟨value, rest, -, -, rfl⟩
  simp at quoted

/-- A tag that ends in the trimmed line ends in the line. -/
theorem EndsTag.of_trim {line : Text} (h : EndsTag (Text.trim line)) : EndsTag line := by
  obtain ⟨-, a, b, blank, -, whole⟩ := trim_spec line
  rw [whole, List.append_assoc]
  exact (h.append b).append_left blank

/-- A value that ends in the trimmed line ends in the line. -/
theorem EndsValue.of_trim {line : Text} (h : EndsValue (Text.trim line)) : EndsValue line := by
  obtain ⟨-, a, b, blank, -, whole⟩ := trim_spec line
  rw [whole, List.append_assoc]
  exact (h.append b).append_left (blank.not_mem (by decide))

/-- The end of a tag in a listing stands in the text that the lines are from. -/
theorem EndsTag.of_unlines {inner : Text} (h : EndsTag (unlines (pathLines inner))) :
    EndsTag inner := by
  have newline : '\n' ≠ '>' := by decide
  induction inner using lineInduction with
  | last line free =>
      rw [pathLines_line free] at h
      split at h
      · exact absurd (h.append ['\n']) (by simpa using not_endsTag_newline)
      · rw [unlines_cons, unlines_nil] at h
        rcases h.of_append newline with inside | ⟨-, behind⟩
        · exact inside.of_trim
        · exact absurd behind not_endsTag_newline
  | step line rest free ih =>
      rw [pathLines_append_newline, unlines_append, pathLines_line free] at h
      split at h
      · rename_i empty
        exact ((ih h).append_left (blank_newline)).append_left
          (trim_eq_nil_iff.1 empty)
      · rename_i solid
        rw [unlines_cons, unlines_nil, List.append_assoc, List.cons_append, List.nil_append] at h
        rcases h.of_append newline with inside | ⟨blank, -⟩
        · exact inside.of_trim.append _
        · exact absurd ((tight_trim line).eq_nil blank) solid

/-- The end of a value in a listing stands in the text that the lines are from. -/
theorem EndsValue.of_unlines {inner : Text} (h : EndsValue (unlines (pathLines inner))) :
    EndsValue inner := by
  have newline : '\n' ≠ '>' := by decide
  have bare : '\x22' ∉ ['\n'] := by decide
  induction inner using lineInduction with
  | last line free =>
      rw [pathLines_line free] at h
      split at h
      · exact absurd h (not_endsValue_of_not_mem (by simp))
      · rw [unlines_cons, unlines_nil] at h
        rcases h.of_append newline with inside | ⟨value, blanks, -, -, -, ends⟩ | ⟨-, behind⟩
        · exact inside.of_trim
        · exact absurd ends not_endsTag_newline
        · exact absurd behind (not_endsValue_of_not_mem bare)
  | step line rest free ih =>
      rw [pathLines_append_newline, unlines_append, pathLines_line free] at h
      split at h
      · rename_i empty
        have blank := trim_eq_nil_iff.1 empty
        exact ((ih h).append_left bare).append_left (blank.not_mem (by decide))
      · rw [unlines_cons, unlines_nil, List.append_assoc, List.cons_append, List.nil_append] at h
        rcases h.of_append newline with inside | ⟨value, blanks, quoted, split, blank, ends⟩ |
          ⟨quoted, behind⟩
        · exact inside.of_trim.append _
        · -- The quote is on this line, the end of the tag on a later one.
          obtain ⟨-, a, b, blankA, blankB, whole⟩ := trim_spec line
          have later : EndsTag (unlines (pathLines rest)) :=
            EndsTag.of_append_left blank_newline (by simpa using ends)
          have behind : EndsTag (blanks ++ (b ++ '\n' :: rest)) :=
            ((later.of_unlines.append_left blank_newline).append_left blankB).append_left blank
          have quoted' : '\x22' ∉ a ++ value := by
            simp [quoted, blankA.not_mem (by decide : isBlank '\x22' = false)]
          exact ⟨a ++ value, _, quoted', behind, by rw [whole, split]; simp⟩
        · have quoted' : '\x22' ∉ line := fun inside => quoted (mem_trim inside (by decide))
          have later : EndsValue (unlines (pathLines rest)) :=
            EndsValue.of_append_left bare (by simpa using behind)
          exact ((ih later).append_left bare).append_left quoted'

/-! ## The block and its neighbours -/

variable {tag inner : Text} {paths : List Text}

/-- A closing tag in a written block stands in the block that it is written for. -/
theorem closeTag_of_renderBlock {tag' : Text} (name' : Spellings.isName tag' = true)
    (kept : ∀ p ∈ paths, p ∈ pathLines inner ∨ '>' ∉ p)
    (stands : closeTag tag' <:+: renderBlock tag paths) :
    closeTag tag' <:+: openTag tag ++ inner ++ closeTag tag := by
  have line := newline_not_mem_closeTag name'
  rw [renderBlock_eq, List.append_assoc, List.cons_append] at stands
  rcases infix_append_cons line stands with opening | stands
  · exact List.infix_append_of_infix_left (List.infix_append_of_infix_left opening)
  · rcases infix_unlines_append line stands with ⟨p, listed, inside⟩ | closing
    · rcases kept p listed with read | free
      · exact List.infix_append_of_infix_left
          (List.infix_append_of_infix_right (inside.trans (infix_of_mem_pathLines read)))
      · exact absurd (inside.subset (by simp [closeTag])) free
    · exact List.infix_append_of_infix_right closing

/-- A written block ends nothing that is open before it, unless the block that it is written for
does: its paths are listed there or hold no `>`, no quote of that block is lost, and a value that
ends among its paths ends in that block. -/
theorem screens_renderBlock {after : Text} (name : Spellings.isName tag = true)
    (kept : ∀ p ∈ paths, p ∈ pathLines inner ∨ '>' ∉ p)
    (quotes : '\x22' ∈ inner → '\x22' ∈ unlines paths)
    (values : EndsValue (unlines paths) → EndsValue inner) :
    Screens (openTag tag ++ inner ++ closeTag tag) (renderBlock tag paths) after where
  opens := ⟨_, rfl⟩
  closes := ⟨openTag tag ++ '\n' :: unlines paths ++ ('<' :: '/' :: tag), by
    rw [renderBlock_eq]
    simp [closeTag]⟩
  closers := fun tag' name' => closeTag_of_renderBlock name' kept
  values := by
    intro ends
    have opening : '\x22' ∉ openTag tag := by
      simp [openTag, Spellings.not_mem_name name (by decide : Spellings.isNameChar '\x22' = false)]
    have newline : '\x22' ∉ ['\n'] := by decide
    have split : renderBlock tag paths ++ after =
        openTag tag ++ (['\n'] ++ (unlines paths ++ '<' :: ('/' :: tag ++ '>' :: after))) := by
      simp [renderBlock_eq, closeTag]
    have split' : openTag tag ++ inner ++ closeTag tag ++ after =
        openTag tag ++ (inner ++ '<' :: ('/' :: tag ++ '>' :: after)) := by
      simp [closeTag]
    rw [split] at ends
    rw [split']
    refine EndsValue.append_left opening ?_
    rcases ((ends.of_append_left opening).of_append_left newline).of_append (by decide) with
      inside | ⟨_, _, -, -, -, behind⟩ | ⟨quoted, behind⟩
    · exact (values inside).append _
    · exact absurd behind not_endsTag_open
    · exact behind.append_left fun held => quoted (quotes held)

end PromptDoc
