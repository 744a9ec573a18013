/-
# PromptDoc.Proofs.Expansion.PlainText — documents without a directive

A document without a directive expands to its text, trimmed and shortened. Neither can bring a
directive into being: a directive that a shortened text begins with stood there already, with
more line feeds between its words (`TagSet.Begins.of_collapse`), and one that a part of a text
begins with, the text holds too (`TagSet.Quiet.of_infix`). So the prompt is plain text again,
and since it is in normal form, expanding it once more leaves it as it is (`expandText_plain`).
-/
import PromptDoc.Proofs.Document.Replace
import PromptDoc.Proofs.Expansion.NormalForm

namespace PromptDoc

set_option autoImplicit false

open Text

namespace TagSet

variable {tags : TagSet} {t u : Text}

/-! ## Directives of a shortened text -/

/-- The tags of a block stand before it is shortened. -/
theorem exists_begins_of_block_collapse {tag inner rest : Text}
    (known : tag ∈ tags.context ∨ tag ∈ tags.note)
    (block : Block tag (Format.collapse t) inner rest) : ∃ d, tags.Begins t d := by
  have name := known.elim isName_of_mem_context isName_of_mem_note
  have opens : Format.collapse t = openTag tag ++ (inner ++ closeTag tag ++ rest) := by
    simpa using block.text
  obtain ⟨inside, rfl, closes⟩ :=
    Format.exists_of_collapse_eq_append (newline_not_mem_openTag name) opens
  obtain ⟨front, back, rfl, -, -⟩ :=
    Format.exists_of_collapse_eq (newline_not_mem_closeTag name) (by simp [closeTag]) closes
  exact exists_begins_of_openTag known ⟨front, back, rfl⟩

/-- The end of a diff tag stands before it is shortened. -/
theorem endsTag_of_collapse {blanks rest : Text} (blank : Blank blanks)
    (ends : Format.collapse t = blanks ++ ['/', '>'] ++ rest) : EndsTag t := by
  obtain ⟨front, back, rfl, rfl, -⟩ := Format.exists_of_collapse_eq (by decide) (by decide) ends
  exact ⟨front, back, Format.blank_of_collapse blank, by simp⟩

/-- The words of a diff tag stand before it is shortened: its name, its attribute with the quote
behind the value, and its end. -/
theorem exists_begins_of_diff_collapse {tag written blanks rest : Text} {branch : Option Text}
    (known : tag ∈ tags.diff) (named : BranchAttribute written branch) (blank : Blank blanks)
    (text : Format.collapse t = ['<'] ++ tag ++ written ++ blanks ++ ['/', '>'] ++ rest) :
    ∃ d, tags.Begins t d := by
  have line : '\n' ∉ '<' :: tag := by
    simp [Spellings.not_mem_name (isName_of_mem_diff known)
      (by decide : Spellings.isNameChar '\n' = false)]
  have opens : Format.collapse t = ('<' :: tag) ++ (written ++ blanks ++ ['/', '>'] ++ rest) := by
    simpa using text
  obtain ⟨inside, rfl, behind⟩ := Format.exists_of_collapse_eq_append line opens
  cases named with
  | absent =>
      obtain ⟨blanks', rest', blank', rfl⟩ := endsTag_of_collapse blank behind
      have text' : '<' :: tag ++ (blanks' ++ '/' :: '>' :: rest') =
          ['<'] ++ tag ++ [] ++ blanks' ++ ['/', '>'] ++ rest' := by simp
      exact ⟨_, .diff known .absent blank' text'⟩
  | @present front value apart blank' quoted =>
      have key : Format.collapse inside = front ++ "branch=\"".toList ++
          (value ++ ['\x22'] ++ (blanks ++ ['/', '>'] ++ rest)) := by simpa using behind
      obtain ⟨front, inside, rfl, rfl, value_⟩ :=
        Format.exists_of_collapse_eq (by decide) (by decide) key
      obtain ⟨value, inside, rfl, rfl, ends⟩ :=
        Format.exists_of_collapse_eq (by decide) (by decide) value_
      have unquoted : '\x22' ∉ value := fun held => quoted (Format.mem_collapse (by decide) held)
      have opens' : tags.OpensValue ('<' :: tag ++ (front ++ "branch=\"".toList ++ value)) :=
        ⟨tag, known, front, value, fun empty => apart (empty ▸ Format.collapse_nil),
          Format.blank_of_collapse blank', unquoted, rfl⟩
      have ends' : EndsValue ('\x22' :: inside) :=
        ⟨[], inside, List.not_mem_nil, endsTag_of_collapse blank ends, rfl⟩
      simpa using opens'.exists_begins ends'

/-- **Shortening brings no directive into being.** -/
theorem Begins.of_collapse {d : Directive} (begins : tags.Begins (Format.collapse t) d) :
    ∃ d', tags.Begins t d' := by
  cases begins with
  | context known block => exact exists_begins_of_block_collapse (Or.inl known) block
  | note known block => exact exists_begins_of_block_collapse (Or.inr known) block
  | diff known named blank text => exact exists_begins_of_diff_collapse known named blank text

theorem Quiet.collapse (quiet : tags.Quiet t []) : tags.Quiet (Format.collapse t) [] := by
  rintro back ⟨front, whole⟩ nonempty d begins
  rw [List.append_nil] at begins
  obtain ⟨b, rfl⟩ := begins.exists_open
  -- The directive starts with `<`, which is no line feed, so it starts in `t` too.
  have place : Format.collapse t = front ++ ['<'] ++ b := by simp [← whole]
  obtain ⟨front', b', rfl, -, rfl⟩ := Format.exists_of_collapse_eq (by decide) (by decide) place
  have same : Format.collapse ('<' :: b') = '<' :: Format.collapse b' := rfl
  obtain ⟨d', begins'⟩ := Begins.of_collapse (same.symm ▸ begins)
  refine quiet ('<' :: b') ⟨front', by simp⟩ (List.cons_ne_nil _ _) d' ?_
  rwa [List.append_nil]

/-! ## Plain documents -/

/-- A part of a quiet text is quiet. -/
theorem Quiet.of_infix (quiet : tags.Quiet t []) (part : u <:+: t) : tags.Quiet u [] := by
  obtain ⟨a, b, rfl⟩ := part
  rintro back ⟨front, rfl⟩ nonempty d begins
  have longer := begins.append b
  rw [List.append_nil] at longer
  exact quiet (back ++ b) ⟨a ++ front, by simp⟩ (by simp [nonempty]) _ (by simpa using longer)

/-- A document without a directive is quiet. -/
theorem quiet_of_segments
    (plain : ∀ segment ∈ tags.segments t, segment.isDirective = false) : tags.Quiet t [] := by
  have scans := scans_pieces tags t
  rw [segments] at plain
  generalize tags.pieces t = ps at scans plain
  cases scans with
  | plain quiet => exact quiet
  | @directive before source rest tag segment ps quiet begins more =>
      have directive : segment.isDirective = true := begins.isDirective
      rw [plain segment (by simp)] at directive
      cases directive

theorem Quiet.pieces (quiet : tags.Quiet t []) : tags.pieces t = Piece.plain t :=
  pieces_of_scans (.plain quiet)

theorem Quiet.segments (quiet : tags.Quiet t []) :
    ∀ segment ∈ tags.segments t, segment.isDirective = false := by
  rw [TagSet.segments, quiet.pieces]
  cases t with
  | nil => exact fun segment inside => absurd inside List.not_mem_nil
  | cons c cs => simp [Segment.isDirective]

/-- A quiet document is trimmed and shortened, and nothing is asked or told. -/
theorem Quiet.expandText (quiet : tags.Quiet t []) (s : Surroundings) :
    s.expandText tags t =
      { text := Format.collapse (Text.trim t), calls := [], notices := [] } := by
  rw [Surroundings.expandText, TagSet.segments, quiet.pieces]
  cases t with
  | nil => rfl
  | cons c cs => simp [Surroundings.expand, Surroundings.resolve, Format.joinParts_singleton]

end TagSet

/-- **Expanding a plain document is inert, and doing it again changes nothing.**  A document without
a directive, whatever looks like one in it, expands to its text, trimmed and shortened; no file is
read, no diff is asked for and nothing is reported. The prompt holds no directive either, and any
surroundings expand it to itself, as quietly. -/
theorem expandText_plain {tags : TagSet} {t : Text}
    (plain : ∀ segment ∈ tags.segments t, segment.isDirective = false) (s : Surroundings) :
    s.expandText tags t =
      { text := Format.collapse (Text.trim t), calls := [], notices := [] } ∧
    (∀ segment ∈ tags.segments (s.expandText tags t).text, segment.isDirective = false) ∧
    ∀ s' : Surroundings,
      s'.expandText tags (s.expandText tags t).text = s.expandText tags t := by
  have quiet := TagSet.quiet_of_segments plain
  have again : tags.Quiet (Format.collapse (Text.trim t)) [] :=
    (quiet.of_infix (trim_isInfix t)).collapse
  obtain ⟨trimmed, shortened⟩ := Format.normal_iff.1 (Format.normal_collapse (tight_trim t))
  rw [quiet.expandText s]
  refine ⟨rfl, again.segments, fun s' => ?_⟩
  rw [again.expandText s', trimmed, shortened]

/-- A block that is not closed, a tag of no known spelling and a diff tag whose value is not ended,
with runs of line feeds inside. -/
def unfinished : Text :=
  "\n<context>\na.rs\n\n\n\n<pb-notes>b</pb-notes> <diff branch=\"main\n\n\n/>\n".toList

def emptyWorkspace : Surroundings where
  root := some "/w".toList
  read := fun _ _ => .error .noWorkspace
  language := id
  diff := fun _ _ => .error .noWorkspace

theorem expandText_plain_unfinished :
    (∀ segment ∈ TagSet.standard.segments unfinished, segment.isDirective = false) ∧
    emptyWorkspace.expandText .standard unfinished =
      { text := "<context>\na.rs\n\n<pb-notes>b</pb-notes> <diff branch=\"main\n\n/>".toList } ∧
    emptyWorkspace.expandText .standard (emptyWorkspace.expandText .standard unfinished).text =
      emptyWorkspace.expandText .standard unfinished := by
  have quiet := TagSet.nextDirective?_eq_none_iff.1
    (by decide : TagSet.standard.nextDirective? unfinished = none)
  have plain : ∀ segment ∈ TagSet.standard.segments unfinished, segment.isDirective = false :=
    quiet.segments
  obtain ⟨prompt, -, again⟩ := expandText_plain plain emptyWorkspace
  have shortened : Format.collapse (Text.trim unfinished) =
      "<context>\na.rs\n\n<pb-notes>b</pb-notes> <diff branch=\"main\n\n/>".toList := by decide
  exact ⟨plain, shortened ▸ prompt, again emptyWorkspace⟩

end PromptDoc
