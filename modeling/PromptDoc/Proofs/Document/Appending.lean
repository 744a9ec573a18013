/-
# PromptDoc.Proofs.Document.Appending — a block behind a document without one

A document without a context block gets one behind its text. Everything before it
sees the new closing tag, so a block of that spelling that the text opens and does not
end is ended by it, and takes the new block inside. Nothing else is: the new block
holds no other closing tag, and no quote with the end of a tag behind it
(`Begins.of_append_block`).

`pieces_append_block_iff` is the exact condition under which the text before a block is
read as it was on its own: no piece of plain text holds the opening tag.
`pieces_addPaths_unopened` is what adding then does to a document without a block,
and `contextPaths_addPaths_opened` a document on which it does something else.
-/
import PromptDoc.Proofs.Document.Adding
import PromptDoc.Proofs.Segment.Leftmost

namespace PromptDoc

set_option autoImplicit false

open Text

/-! ## Tags and what follows them -/

theorem openTag_infix_append_blank {tag t blanks : Text} (blank : Blank blanks) :
    openTag tag <:+: t ++ blanks ↔ openTag tag <:+: t :=
  infix_append_blank ('<' :: tag) (by decide) blank

theorem closeTag_infix_append_blank {tag t blanks : Text} (blank : Blank blanks) :
    closeTag tag <:+: t ++ blanks ↔ closeTag tag <:+: t :=
  infix_append_blank ('<' :: '/' :: tag) (by decide) blank

/-- A text that holds one closing tag holds no other. -/
theorem eq_of_closeTag_infix {tag tag' : Text} (name : Spellings.isName tag = true)
    (name' : Spellings.isName tag' = true)
    (stands : closeTag tag' <:+: openTag tag ++ closeTag tag) : tag' = tag := by
  rcases infix_append_open (open_not_mem_tail_closeTag name') stands with opening | closing
  · have slash : '/' ∈ openTag tag := opening.subset (by simp [closeTag])
    have free := Spellings.not_mem_name name (by decide : Spellings.isNameChar '/' = false)
    simp [openTag, free] at slash
  · rcases List.infix_cons_iff.1 closing with ⟨b, whole⟩ | inside
    · have behind : tag' ++ '>' :: b = tag ++ ['>'] := by simpa [closeTag] using whole
      have free' := Spellings.not_mem_name name' (by decide : Spellings.isNameChar '>' = false)
      obtain ⟨more, rfl, later⟩ := front_of_append_eq free' behind
      cases more with
      | nil => simp
      | cons m ms =>
          obtain ⟨rfl, -⟩ := List.cons.inj later
          have free := Spellings.not_mem_name name (by decide : Spellings.isNameChar '>' = false)
          simp at free
    · have here : '<' ∈ (closeTag tag).tail := inside.subset (by simp [closeTag])
      exact absurd here (open_not_mem_tail_closeTag name)

namespace Piece

def directives (ps : List Piece) : List Piece := ps.filter (·.segment.isDirective)

@[simp] theorem directives_append (ps qs : List Piece) :
    directives (ps ++ qs) = directives ps ++ directives qs :=
  List.filter_append ps qs

@[simp] theorem directives_plain (t : Text) : directives (plain t) = [] := by
  cases t <;> rfl

/-- No plain text among the pieces opens a block of the spelling. -/
def Unopened (tag : Text) (ps : List Piece) : Prop :=
  ∀ p ∈ ps, p.tag = none → ¬ openTag tag <:+: p.source

instance (tag : Text) (ps : List Piece) : Decidable (Unopened tag ps) :=
  inferInstanceAs (Decidable (∀ p ∈ ps, p.tag = none → ¬ openTag tag <:+: p.source))

theorem unopened_append {tag : Text} {ps qs : List Piece} :
    Unopened tag (ps ++ qs) ↔ Unopened tag ps ∧ Unopened tag qs :=
  List.forall_mem_append

theorem unopened_plain {tag t : Text} : Unopened tag (plain t) ↔ ¬ openTag tag <:+: t := by
  cases t with
  | nil => simp [Unopened, openTag]
  | cons c cs => simp [Unopened]

end Piece

namespace TagSet

variable {tags : TagSet} {t : Text}

/-! ## Blanks behind a document -/

/-- A directive ends with `>`. -/
theorem Begins.exists_close {source tag : Text} {segment : Segment}
    (begins : tags.Begins source ⟨tag, segment, []⟩) : ∃ m, source = m ++ ['>'] := by
  cases begins with
  | @context tag inner _ known block =>
      exact ⟨openTag tag ++ inner ++ ('<' :: '/' :: tag), by simp [block.text, closeTag]⟩
  | @note tag inner _ known block =>
      exact ⟨openTag tag ++ inner ++ ('<' :: '/' :: tag), by simp [block.text, closeTag]⟩
  | @diff tag written blanks _ _ known named blank text =>
      exact ⟨['<'] ++ tag ++ written ++ blanks ++ ['/'], by simp [text]⟩

/-- Blanks do not end a directive. -/
theorem Begins.of_append_blank {s blanks : Text} {d : Directive} (blank : Blank blanks)
    (begins : tags.Begins (s ++ blanks) d) : ∃ d', tags.Begins s d' := by
  obtain ⟨tag, segment, rest⟩ := d
  obtain ⟨source, -, whole⟩ := begins.exists_source
  rw [whole] at begins
  have alone : tags.Begins source ⟨tag, segment, []⟩ := by simpa using begins.local []
  obtain ⟨m, rfl⟩ := alone.exists_close
  have close : m ++ '>' :: rest = s ++ blanks := by simpa using whole.symm
  obtain ⟨more, rfl, -⟩ := exists_append_blank (by decide) blank close
  exact ⟨_, by simpa using begins.local more⟩

theorem Quiet.append_blank {before rest blanks : Text} (blank : Blank blanks)
    (quiet : tags.Quiet before rest) : tags.Quiet before (rest ++ blanks) := by
  intro back suffix nonempty d begins
  rw [← List.append_assoc] at begins
  obtain ⟨d', begins'⟩ := begins.of_append_blank blank
  exact quiet back suffix nonempty d' begins'

/-- Blanks behind a quiet stretch are quiet with it. -/
theorem Quiet.concat_blank {front blanks : Text} (blank : Blank blanks)
    (quiet : tags.Quiet front []) : tags.Quiet (front ++ blanks) [] := by
  rintro back ⟨x, whole⟩ nonempty d begins
  rw [List.append_nil] at begins
  rcases List.append_eq_append_iff.1 whole with ⟨more, rfl, rfl⟩ | ⟨more, rfl, rfl⟩
  · obtain ⟨d', begins'⟩ := begins.of_append_blank blank
    refine quiet more (List.suffix_append _ _) ?_ d' (by simpa using begins')
    rintro rfl
    exact not_begins_nil begins'
  · have alone : tags.Begins ([] ++ back) d := begins
    obtain ⟨d', begins'⟩ := alone.of_append_blank (Text.blank_append.1 blank).2
    exact not_begins_nil begins'

/-- Blanks behind a document belong to the text at its end. -/
theorem Scans.exists_blank {ps : List Piece} (scans : tags.Scans t ps) :
    ∃ front last, ∀ blanks, Blank blanks →
      tags.Scans (t ++ blanks) (front ++ Piece.plain (last ++ blanks)) := by
  induction scans with
  | @plain t quiet =>
      exact ⟨[], t, fun blanks blank => .plain (quiet.concat_blank blank)⟩
  | @directive before source rest tag segment ps quiet begins more ih =>
      obtain ⟨front, last, later⟩ := ih
      refine ⟨Piece.plain before ++ { segment, tag := some tag, source } :: front, last,
        fun blanks blank => ?_⟩
      have quiet' := quiet.append_blank blank
      rw [List.append_assoc] at quiet'
      simpa using Scans.directive quiet' (begins.local (rest ++ blanks)) (later blanks blank)

/-- Blanks behind a document change neither its directives nor what its plain text opens. -/
theorem pieces_append_blank (tags : TagSet) (t : Text) {blanks : Text} (blank : Blank blanks) :
    Piece.directives (tags.pieces (t ++ blanks)) = Piece.directives (tags.pieces t) ∧
      ∀ tag, Piece.Unopened tag (tags.pieces (t ++ blanks)) ↔
        Piece.Unopened tag (tags.pieces t) := by
  obtain ⟨front, last, scans⟩ := (scans_pieces tags t).exists_blank
  have here := pieces_of_scans (scans [] Text.blank_nil)
  have behind := pieces_of_scans (scans blanks blank)
  rw [List.append_nil, List.append_nil] at here
  rw [here, behind]
  refine ⟨by simp, fun tag => ?_⟩
  rw [Piece.unopened_append, Piece.unopened_append, Piece.unopened_plain, Piece.unopened_plain,
    openTag_infix_append_blank blank]

/-! ## A block behind a document -/

section Block

variable {tag after : Text} {paths : List Text} (known : tag ∈ tags.context)
  (free : ∀ p ∈ paths, '>' ∉ p) (blank : Blank after)
include known free blank

/-- A directive that starts before a block ends before it too, or is a block of the same spelling
that is open there. -/
theorem Begins.of_append_block {s : Text} {d : Directive} (nonempty : s ≠ [])
    (begins : tags.Begins (s ++ (renderBlock tag paths ++ after)) d) :
    (∃ d', tags.Begins s d') ∨ openTag tag <+: s := by
  have name := isName_of_mem_context known
  have unquoted : '\x22' ∉ openTag tag ++ [] ++ closeTag tag ++ after := by
    simp [openTag, closeTag, blank.not_mem (by decide : isBlank '\x22' = false),
      Spellings.not_mem_name name (by decide : Spellings.isNameChar '\x22' = false)]
  have bare : ¬ EndsValue (unlines paths) := by
    intro ends
    have close : '>' ∉ unlines paths := by
      intro held
      obtain ⟨p, listed, held⟩ := mem_unlines.1 held
      exact held.elim (free p listed) (by decide)
    exact not_endsValue_of_not_mem List.not_mem_nil (EndsValue.of_append_right (a := []) close ends)
  -- Paths without `>` end nothing, so the block ends what an empty one does.
  have screens : Screens (openTag tag ++ [] ++ closeTag tag) (renderBlock tag paths) after :=
    screens_renderBlock name (fun p listed => Or.inr (free p listed))
      (fun quote => absurd quote List.not_mem_nil) fun ends => absurd ends bare
  rcases begins.of_append_open nonempty with before | ⟨tag', known', opens, closed⟩ | ⟨-, ends⟩
  · exact Or.inl before
  · have name' := known'.elim isName_of_mem_context isName_of_mem_note
    have closed := screens.closeTag_infix name' closed
    rw [List.append_nil, closeTag_infix_append_blank blank] at closed
    have same : tag' = tag := eq_of_closeTag_infix name name' closed
    exact Or.inr (same ▸ opens)
  · exact absurd (screens.values ends) (not_endsValue_of_not_mem unquoted)

omit known free in
theorem quiet_blank : tags.Quiet after [] := by
  have none_ : tags.Quiet [] [] := quiet_nil []
  exact none_.concat_blank blank

/-- A stretch stays quiet before a block, if it does not open one of the same spelling. -/
theorem Quiet.append_block {before rest : Text} (quiet : tags.Quiet before rest)
    (edge : rest = [] ∨ ∃ u, rest = '<' :: u) (unopened : ¬ openTag tag <:+: before) :
    tags.Quiet before (rest ++ (renderBlock tag paths ++ after)) := by
  intro back suffix nonempty d begins
  rw [← List.append_assoc] at begins
  rcases begins.of_append_block known free blank (by simp [nonempty]) with ⟨d', begins'⟩ | opens
  · exact quiet back suffix nonempty d' begins'
  · have inside : openTag tag <+: back := by
      rcases edge with rfl | ⟨u, rfl⟩
      · simpa using opens
      · exact prefix_of_prefix_append (open_not_mem_tail_openTag (isName_of_mem_context known))
          nonempty opens
    exact unopened (inside.isInfix.trans suffix.isInfix)

/-- A document before a block is read as on its own, if none of its plain text opens a block of the
same spelling. -/
theorem Scans.append_block {ps : List Piece} (scans : tags.Scans t ps)
    (lines : ∀ p ∈ paths, IsPathLine p) (unopened : Piece.Unopened tag ps) :
    tags.Scans (t ++ (renderBlock tag paths ++ after))
      (ps ++ { segment := .context paths, tag := some tag, source := renderBlock tag paths } ::
        Piece.plain after) := by
  induction scans with
  | @plain t quiet =>
      have quiet' := quiet.append_block known free blank (Or.inl rfl)
        (Piece.unopened_plain.1 unopened)
      have bare : ∀ p ∈ paths, ¬ closeTag tag <:+: p := fun p listed stands =>
        free p listed (stands.subset (by simp [closeTag]))
      have block := (begins_renderBlock known lines bare).append after
      exact .directive quiet' block (.plain (quiet_blank blank))
  | @directive before source rest tag' segment ps quiet begins more ih =>
      obtain ⟨before_, behind⟩ := Piece.unopened_append.1 unopened
      have later := ih fun p inside => behind p (List.mem_cons_of_mem _ inside)
      have quiet' := quiet.append_block known free blank (Or.inr begins.exists_open)
        (Piece.unopened_plain.1 before_)
      rw [List.append_assoc] at quiet'
      simpa using Scans.directive quiet' (begins.local _) later

/-- **A block behind a document.**  The document is read as on its own and the block as it was
written exactly if no plain text of the document opens a block of the same spelling. -/
theorem pieces_append_block_iff (lines : ∀ p ∈ paths, IsPathLine p) :
    tags.pieces (t ++ (renderBlock tag paths ++ after)) =
        tags.pieces t ++
          { segment := .context paths, tag := some tag, source := renderBlock tag paths } ::
            Piece.plain after ↔
      Piece.Unopened tag (tags.pieces t) := by
  constructor
  · rintro same p inside text ⟨x, y, opens⟩
    obtain ⟨front, back, split⟩ := List.append_of_mem inside
    rw [split, List.append_assoc, List.cons_append] at same
    -- The opening tag and the closing tag of the block begin a directive in a quiet stretch.
    have quiet := (scans_pieces tags _).quiet same text
    have suffix : openTag tag ++ y <:+ p.source := ⟨x, by simpa using opens⟩
    have closed : closeTag tag <:+: y ++ (Piece.join back ++ (renderBlock tag paths ++ after)) :=
      ⟨y ++ Piece.join back ++ (openTag tag ++ '\n' :: unlines paths), after, by
        simp [renderBlock_eq]⟩
    obtain ⟨d, begins⟩ := exists_begins_of_openTag (Or.inl known) closed
    exact quiet _ suffix (by simp [openTag]) d (by simpa using begins)
  · exact fun unopened =>
      pieces_of_scans ((scans_pieces tags t).append_block known free blank lines unopened)

end Block

/-! ## Adding to a document without a block -/

/-- What stands between a trimmed document and the block that is put behind it. -/
def gap (t : Text) : Text := if Text.trimEnd t = [] then [] else "\n\n".toList

theorem blank_gap (t : Text) : Blank (gap t) := by
  rw [gap]
  split
  · exact Text.blank_nil
  · exact Text.blank_append.2 ⟨Text.blank_newline, Text.blank_newline⟩

theorem appendBlock_eq (t block : Text) :
    appendBlock t block = Text.trimEnd t ++ gap t ++ block ++ ['\n'] := by
  rw [appendBlock, gap]
  split
  · rename_i empty
    simp [empty]
  · rename_i solid
    rw [if_neg solid]

theorem addPaths_of_firstBlock?_eq_none {tag : Text} {paths : List Text}
    (primary : tags.primaryContext? = some tag) (none_ : tags.firstBlock? t = none)
    (new : newPaths [] paths ≠ []) :
    tags.addPaths t paths = appendBlock t (renderBlock tag (newPaths [] paths)) := by
  rw [addPaths, none_, primary, extendPaths_eq, List.nil_append]
  cases added : newPaths [] paths with
  | nil => exact absurd added new
  | cons p ps => rfl

/-- **Adding paths to a document without a block.**  If no plain text opens a block of the primary
spelling, the directives stay as they are and one is put behind them: a block of that spelling that
lists the new paths and holds nothing else. -/
theorem pieces_addPaths_unopened {tag : Text} {paths : List Text}
    (primary : tags.primaryContext? = some tag)
    (without : ∀ listed, Segment.context listed ∉ tags.segments t)
    (fits : ∀ p ∈ paths, '\n' ∉ Text.trim p ∧ '>' ∉ Text.trim p)
    (solid : ∃ p ∈ paths, Text.trim p ≠ [])
    (unopened : Piece.Unopened tag (tags.pieces t)) :
    ∃ block : Piece,
      block = { segment := .context (newPaths [] paths), tag := some tag
                source := renderBlock tag (newPaths [] paths) } ∧
      tags.addPaths t paths = Text.trimEnd t ++ gap t ++ block.source ++ ['\n'] ∧
      tags.pieces (tags.addPaths t paths) =
        tags.pieces (Text.trimEnd t ++ gap t) ++ block :: Piece.plain ['\n'] ∧
      Piece.directives (tags.pieces (tags.addPaths t paths)) =
        Piece.directives (tags.pieces t) ++ [block] ∧
      tags.contextPaths (tags.addPaths t paths) = newPaths [] paths := by
  have known : tag ∈ tags.context := List.mem_of_mem_head? primary
  have new : ∀ p ∈ newPaths [] paths, IsPathLine p ∧ '>' ∉ p := by
    intro p listed
    obtain ⟨given, nonempty, -⟩ := mem_newPaths.1 listed
    obtain ⟨path, inside, rfl⟩ := List.mem_map.1 given
    exact ⟨⟨nonempty, trim_trim path, (fits path inside).1⟩, (fits path inside).2⟩
  have some_ : newPaths [] paths ≠ [] := by
    obtain ⟨p, inside, nonempty⟩ := solid
    exact List.ne_nil_of_mem
      (mem_newPaths.2 ⟨List.mem_map.2 ⟨p, inside, rfl⟩, nonempty, List.not_mem_nil⟩)
  -- Both the document and what the block is put behind are the trimmed document and blanks.
  obtain ⟨trailing, blankTrailing, whole⟩ := exists_trimEnd t
  obtain ⟨directives, opened⟩ := pieces_append_blank tags (Text.trimEnd t) blankTrailing
  obtain ⟨directives', opened'⟩ := pieces_append_blank tags (Text.trimEnd t) (blank_gap t)
  have text := appendBlock_eq t (renderBlock tag (newPaths [] paths))
  rw [← whole] at directives opened
  rw [← addPaths_of_firstBlock?_eq_none primary (firstBlock?_eq_none without) some_] at text
  have pieces := (pieces_append_block_iff known (fun p listed => (new p listed).2) blank_newline
    fun p listed => (new p listed).1).2 ((opened' tag).2 ((opened tag).1 unopened))
  rw [← List.append_assoc, ← text] at pieces
  have first : ∀ p ∈ tags.pieces (Text.trimEnd t ++ gap t), ∀ listed,
      p.segment ≠ .context listed := by
    intro p inside listed context
    have directive : p ∈ Piece.directives (tags.pieces (Text.trimEnd t ++ gap t)) :=
      List.mem_filter.2 ⟨inside, by rw [context]; rfl⟩
    rw [directives', ← directives] at directive
    exact without listed (List.mem_map.2 ⟨p, (List.mem_filter.1 directive).1, context⟩)
  refine ⟨_, rfl, text, pieces, ?_, ?_⟩
  · rw [pieces, Piece.directives_append, directives', ← directives]
    rfl
  · rw [contextPaths, firstBlock?, pieces, ContextBlock.first?_append first]

/-- A document that opens a block of a spelling that is not the primary one, and a diff tag whose
value it does not end. -/
def halfOpen : Text := "<pb-context>\na\n<diff branch=\"main\n<pb-note>old</pb-note>  ".toList

theorem pieces_addPaths_halfOpen :
    TagSet.standard.primaryContext? = some "context".toList ∧
    (∀ listed, Segment.context listed ∉ TagSet.standard.segments halfOpen) ∧
    (∀ p ∈ [" c\".rs ".toList, "a.rs".toList, []], '\n' ∉ Text.trim p ∧ '>' ∉ Text.trim p) ∧
    (∃ p ∈ [" c\".rs ".toList, "a.rs".toList, []], Text.trim p ≠ []) ∧
    Piece.Unopened "context".toList (TagSet.standard.pieces halfOpen) ∧
    TagSet.standard.contextPaths
        (TagSet.standard.addPaths halfOpen [" c\".rs ".toList, "a.rs".toList, []]) =
      newPaths [] [" c\".rs ".toList, "a.rs".toList, []] := by
  have primary : TagSet.standard.primaryContext? = some "context".toList := rfl
  have segments : TagSet.standard.segments halfOpen =
      [.text "<pb-context>\na\n<diff branch=\"main\n".toList, .note "old".toList,
        .text "  ".toList] := by decide +kernel
  have without : ∀ listed, Segment.context listed ∉ TagSet.standard.segments halfOpen := by
    simp [segments]
  have fits : ∀ p ∈ [" c\".rs ".toList, "a.rs".toList, []],
      '\n' ∉ Text.trim p ∧ '>' ∉ Text.trim p := by decide
  have solid : ∃ p ∈ [" c\".rs ".toList, "a.rs".toList, []], Text.trim p ≠ [] := by decide
  have unopened : Piece.Unopened "context".toList (TagSet.standard.pieces halfOpen) := by
    decide +kernel
  obtain ⟨_, -, -, -, -, listed⟩ := pieces_addPaths_unopened primary without fits solid unopened
  exact ⟨primary, without, fits, solid, unopened, listed⟩

/-- The block that is put behind an opening tag ends what the opening tag began: it lists the
opening tag of the new block too. -/
theorem contextPaths_addPaths_opened :
    TagSet.standard.segments "<context>".toList = [.text "<context>".toList] ∧
    TagSet.standard.segments (TagSet.standard.addPaths "<context>".toList ["a.rs".toList]) =
      [.context ["<context>".toList, "a.rs".toList], .text ['\n']] ∧
    TagSet.standard.contextPaths
        (TagSet.standard.addPaths "<context>".toList ["a.rs".toList]) =
      ["<context>".toList, "a.rs".toList] := by
  decide +kernel

end TagSet

end PromptDoc
