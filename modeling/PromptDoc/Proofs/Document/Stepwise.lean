/-
# PromptDoc.Proofs.Document.Stepwise — adding in steps

Paths that are added one after the other make the document that adding them at once
makes (`addPaths_addPaths`), so adding the same paths again changes nothing.

The lists agree by themselves: what is new in the second step is what is new behind the
first (`newPaths_append`). The documents agree because the second step finds the very
block that the first one wrote, with the same text around it, and writes it anew from the
list that it reads there (`addPaths_written`). If the first step made the block, the two
documents have the same text before it, the trimmed document and a gap.

A document without a block has to be one that a block can be put behind: plain text that
opens a block of the primary spelling would take the new one inside. Only the paths of
the first step have to stand as lines, since those of the second are not read again.
-/
import PromptDoc.Proofs.Document.Appending

namespace PromptDoc

set_option autoImplicit false

open Text

/-! ## New paths in steps -/

theorem extendPaths_append (listed ps qs : List Text) :
    extendPaths listed (ps ++ qs) = extendPaths (extendPaths listed ps) qs := by
  induction ps generalizing listed with
  | nil => rfl
  | cons p ps ih =>
      rw [List.cons_append]
      by_cases old : Text.trim p = [] ∨ Text.trim p ∈ listed
      · rw [extendPaths_of_listed _ old, extendPaths_of_listed _ old, ih]
      · rw [extendPaths_of_new _ old, extendPaths_of_new _ old, ih]

/-- What is new in two lists is new in the first, or new in the second behind it. -/
theorem newPaths_append (listed ps qs : List Text) :
    newPaths listed (ps ++ qs) =
      newPaths listed ps ++ newPaths (listed ++ newPaths listed ps) qs := by
  have steps := extendPaths_append listed ps qs
  simp only [extendPaths_eq, List.append_assoc] at steps
  exact List.append_cancel_left steps

/-- Nothing is new twice. -/
theorem newPaths_append_newPaths (listed ps : List Text) :
    newPaths (listed ++ newPaths listed ps) ps = [] := by
  rw [List.eq_nil_iff_forall_not_mem]
  intro p again
  obtain ⟨given, solid, fresh⟩ := mem_newPaths.1 again
  obtain ⟨old, new⟩ := not_or.1 (fun held => fresh (List.mem_append.2 held))
  exact new (mem_newPaths.2 ⟨given, solid, old⟩)

/-- A new path stands as a line without `>`, if the paths given do once they are trimmed. -/
theorem newPaths_fit {paths : List Text} (listed : List Text)
    (fits : ∀ p ∈ paths, '\n' ∉ Text.trim p ∧ '>' ∉ Text.trim p) :
    ∀ p ∈ newPaths listed paths, IsPathLine p ∧ '>' ∉ p := by
  intro p new
  obtain ⟨given, solid, -⟩ := mem_newPaths.1 new
  obtain ⟨path, inside, rfl⟩ := List.mem_map.1 given
  exact ⟨⟨solid, trim_trim path, (fits path inside).1⟩, (fits path inside).2⟩

namespace TagSet

variable {tags : TagSet} {t : Text}

/-! ## The second step -/

/-- Adding to a document whose first block is in written form writes the longer list. -/
theorem addPaths_written {before tag after : Text} {listed : List Text}
    (found : tags.firstBlock? (before ++ renderBlock tag listed ++ after) =
      some ⟨before, tag, listed, after⟩) (paths : List Text) :
    tags.addPaths (before ++ renderBlock tag listed ++ after) paths =
      before ++ renderBlock tag (listed ++ newPaths listed paths) ++ after := by
  rw [addPaths_of_firstBlock? found]
  split
  · rename_i none_
    simp only at none_
    rw [none_, List.append_nil]
  · rfl

/-- The block that a first step wrote anew is found again. -/
theorem FirstBlock.firstBlock?_append (block : FirstBlock tags t) {added : List Text}
    (fit : ∀ p ∈ added, IsPathLine p ∧ '>' ∉ p) :
    tags.firstBlock? (Piece.join block.front ++ renderBlock block.tag (block.paths ++ added) ++
        Piece.join block.back) =
      some ⟨Piece.join block.front, block.tag, block.paths ++ added, Piece.join block.back⟩ := by
  rw [firstBlock?, block.pieces_append (fun p new => (fit p new).1) fun p new => (fit p new).2]
  exact ContextBlock.first?_append block.first

/-- A text that does not hold an opening tag does not open it in plain text. -/
theorem unopened_of_absent {tag : Text} (absent : ¬ openTag tag <:+: t) :
    Piece.Unopened tag (tags.pieces t) := by
  intro p inside _ opens
  obtain ⟨front, back, split⟩ := List.append_of_mem inside
  have whole : Piece.join front ++ p.source ++ Piece.join back = t := by
    have whole := join_pieces tags t
    rw [split] at whole
    simpa using whole
  exact absent (opens.trans ⟨_, _, whole⟩)

/-- Blanks behind a document make no context block. -/
theorem mem_segments_append_blank {blanks : Text} (blank : Blank blanks) {listed : List Text} :
    Segment.context listed ∈ tags.segments (t ++ blanks) ↔
      Segment.context listed ∈ tags.segments t := by
  have directives := (pieces_append_blank tags t blank).1
  have among : ∀ u, Segment.context listed ∈ tags.segments u ↔
      ∃ p ∈ Piece.directives (tags.pieces u), p.segment = .context listed := by
    intro u
    constructor
    · intro inside
      obtain ⟨p, member, context⟩ := List.mem_map.1 inside
      exact ⟨p, List.mem_filter.2 ⟨member, by rw [context]; rfl⟩, context⟩
    · rintro ⟨p, member, context⟩
      exact List.mem_map.2 ⟨p, (List.mem_filter.1 member).1, context⟩
  rw [among, among, directives]

/-- The block that a first step put behind a document is found again. -/
theorem firstBlock?_appendBlock {tag : Text} {paths : List Text} (known : tag ∈ tags.context)
    (without : ∀ listed, Segment.context listed ∉ tags.segments t)
    (unopened : Piece.Unopened tag (tags.pieces t))
    (fit : ∀ p ∈ paths, IsPathLine p ∧ '>' ∉ p) :
    tags.firstBlock? (Text.trimEnd t ++ gap t ++ renderBlock tag paths ++ ['\n']) =
      some ⟨Text.trimEnd t ++ gap t, tag, paths, ['\n']⟩ := by
  -- Both the document and what the block is put behind are the trimmed document and blanks.
  obtain ⟨trailing, blankTrailing, whole⟩ := exists_trimEnd t
  have opened := (pieces_append_blank tags (Text.trimEnd t) blankTrailing).2 tag
  have opened' := (pieces_append_blank tags (Text.trimEnd t) (blank_gap t)).2 tag
  rw [← whole] at opened
  have pieces := (pieces_append_block_iff known (fun p listed => (fit p listed).2) blank_newline
    fun p listed => (fit p listed).1).2 (opened'.2 (opened.1 unopened))
  have first : ∀ p ∈ tags.pieces (Text.trimEnd t ++ gap t), ∀ listed,
      p.segment ≠ .context listed := by
    intro p inside listed context
    refine without listed ?_
    rw [whole, mem_segments_append_blank blankTrailing, ← mem_segments_append_blank (blank_gap t)]
    exact List.mem_map.2 ⟨p, inside, context⟩
  rw [firstBlock?, List.append_assoc, pieces, ContextBlock.first?_append first, join_pieces,
    Piece.join_plain]

/-- What adding makes of a document without a context block. -/
theorem addPaths_of_without {tag : Text} (primary : tags.primaryContext? = some tag)
    (without : ∀ listed, Segment.context listed ∉ tags.segments t) (paths : List Text) :
    tags.addPaths t paths =
      if newPaths [] paths = [] then t
      else Text.trimEnd t ++ gap t ++ renderBlock tag (newPaths [] paths) ++ ['\n'] := by
  have none_ := firstBlock?_eq_none without
  split
  · rename_i nothing
    rw [addPaths, none_, primary, extendPaths_eq, nothing]
    rfl
  · rename_i some_
    rw [addPaths_of_firstBlock?_eq_none primary none_ some_, appendBlock_eq]

/-- Without a context spelling nothing is added. -/
theorem addPaths_of_primaryContext?_eq_none (none_ : tags.primaryContext? = none)
    (without : ∀ listed, Segment.context listed ∉ tags.segments t) (paths : List Text) :
    tags.addPaths t paths = t := by
  rw [addPaths, firstBlock?_eq_none without, none_]

/-! ## Both steps -/

/-- Adding in steps to a document with a context block. -/
theorem FirstBlock.addPaths_append (block : FirstBlock tags t) {ps : List Text} (qs : List Text)
    (fits : ∀ p ∈ ps, '\n' ∉ Text.trim p ∧ '>' ∉ Text.trim p) :
    tags.addPaths (tags.addPaths t ps) qs = tags.addPaths t (ps ++ qs) := by
  by_cases none_ : newPaths block.paths ps = []
  · rw [block.addPaths_eq ps, if_pos none_, block.addPaths_eq qs, block.addPaths_eq (ps ++ qs),
      newPaths_append, none_, List.append_nil, List.nil_append]
  · have found := block.firstBlock?_append (newPaths_fit block.paths fits)
    have some_ : newPaths block.paths (ps ++ qs) ≠ [] := by
      rw [newPaths_append]
      exact List.append_ne_nil_of_left_ne_nil none_ _
    rw [block.addPaths_eq ps, if_neg none_, addPaths_written found, block.addPaths_eq (ps ++ qs),
      if_neg some_, newPaths_append, List.append_assoc block.paths]

/-- Adding in steps to a document that a block can be put behind. -/
theorem addPaths_append_of_unopened {tag : Text} {ps : List Text} (qs : List Text)
    (primary : tags.primaryContext? = some tag)
    (without : ∀ listed, Segment.context listed ∉ tags.segments t)
    (unopened : Piece.Unopened tag (tags.pieces t))
    (fits : ∀ p ∈ ps, '\n' ∉ Text.trim p ∧ '>' ∉ Text.trim p) :
    tags.addPaths (tags.addPaths t ps) qs = tags.addPaths t (ps ++ qs) := by
  have known : tag ∈ tags.context := List.mem_of_mem_head? primary
  rw [addPaths_of_without primary without ps, addPaths_of_without primary without (ps ++ qs),
    newPaths_append, List.nil_append]
  by_cases none_ : newPaths [] ps = []
  · rw [if_pos none_, addPaths_of_without primary without qs, none_, List.nil_append]
  · have found := firstBlock?_appendBlock known without unopened (newPaths_fit [] fits)
    rw [if_neg none_, addPaths_written found,
      if_neg (List.append_ne_nil_of_left_ne_nil none_ _)]

/-- What adding makes of a document depends on the paths only through those that are new. -/
theorem addPaths_congr {ps qs : List Text}
    (same : ∀ listed, newPaths listed ps = newPaths listed qs) :
    tags.addPaths t ps = tags.addPaths t qs := by
  simp only [addPaths, extendPaths_eq, same]

/-- **Adding in steps is adding at once.**  The document has a context block, or it does not hold the
opening tag of the spelling that a new block is written with; a tag set without context spellings
asks for nothing. In particular adding the same paths again changes nothing. -/
theorem addPaths_addPaths {ps : List Text} (qs : List Text)
    (place : (∃ listed, Segment.context listed ∈ tags.segments t) ∨
      ∀ tag, tags.primaryContext? = some tag → ¬ openTag tag <:+: t)
    (fits : ∀ p ∈ ps, '\n' ∉ Text.trim p ∧ '>' ∉ Text.trim p) :
    tags.addPaths (tags.addPaths t ps) qs = tags.addPaths t (ps ++ qs) ∧
      tags.addPaths (tags.addPaths t ps) ps = tags.addPaths t ps := by
  have steps : ∀ qs, tags.addPaths (tags.addPaths t ps) qs = tags.addPaths t (ps ++ qs) := by
    intro qs
    by_cases has : ∃ listed, Segment.context listed ∈ tags.segments t
    · obtain ⟨block⟩ := nonempty_firstBlock has
      exact block.addPaths_append qs fits
    · have without := not_exists.1 has
      cases primary : tags.primaryContext? with
      | none => simp only [addPaths_of_primaryContext?_eq_none primary without]
      | some tag =>
          have absent := place.resolve_left has tag primary
          exact addPaths_append_of_unopened qs primary without (unopened_of_absent absent) fits
  refine ⟨steps qs, ?_⟩
  calc tags.addPaths (tags.addPaths t ps) ps
      = tags.addPaths t (ps ++ ps) := steps ps
    _ = tags.addPaths t ps := addPaths_congr fun listed => by
        rw [newPaths_append, newPaths_append_newPaths, List.append_nil]

/-- A block of the second spelling behind a note that is never closed, with a path listed twice. -/
def doubled : Text := "<pb-note>\n<pb-context>a.rs\r\n a.rs</pb-context>\" <diff/>".toList

def blockless : Text := "<pb-context>\na.rs\n</context>\n \n".toList

theorem addPaths_addPaths_doubled :
    (∃ listed, Segment.context listed ∈ TagSet.standard.segments doubled) ∧
    (∀ tag, TagSet.standard.primaryContext? = some tag → ¬ openTag tag <:+: blockless) ∧
    (∀ p ∈ [" b\".rs ".toList, "a.rs".toList, []], '\n' ∉ Text.trim p ∧ '>' ∉ Text.trim p) ∧
    ∀ t ∈ [doubled, blockless],
      TagSet.standard.addPaths
          (TagSet.standard.addPaths t [" b\".rs ".toList, "a.rs".toList, []])
          ["c.rs".toList, "b\".rs".toList] =
        TagSet.standard.addPaths t
          [" b\".rs ".toList, "a.rs".toList, [], "c.rs".toList, "b\".rs".toList] := by
  have listed : Segment.context ["a.rs".toList, "a.rs".toList] ∈
      TagSet.standard.segments doubled := by decide +kernel
  have absent : ∀ tag, TagSet.standard.primaryContext? = some tag →
      ¬ openTag tag <:+: blockless := by
    intro tag primary
    cases primary
    decide
  have fits : ∀ p ∈ [" b\".rs ".toList, "a.rs".toList, []],
      '\n' ∉ Text.trim p ∧ '>' ∉ Text.trim p := by decide
  refine ⟨⟨_, listed⟩, absent, fits, ?_⟩
  simp only [List.forall_mem_cons, List.not_mem_nil, false_imp_iff, implies_true, and_true]
  exact ⟨(addPaths_addPaths _ (Or.inl ⟨_, listed⟩) fits).1,
    (addPaths_addPaths _ (Or.inr absent) fits).1⟩

end TagSet

end PromptDoc
