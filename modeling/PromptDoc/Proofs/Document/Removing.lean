/-
# PromptDoc.Proofs.Document.Removing — paths taken out of the first block

`otherPaths listed paths` are the listed paths that are none of those given. Removing
leaves a document as it is if its first context block lists none of the given paths, and
else writes that block anew for the other ones (`FirstBlock.removePaths_eq`).

A line that is taken out brings together what stood on both sides of it: a quote on the
line before it and `/>` on the line behind it would end the value of a diff tag that is
open before the block. So the frame is stated for blocks whose paths hold no quote
(`FirstBlock.pieces_unquoted`); then no value ends inside the block, whatever is taken out.
`pieces_removePaths` is what removing does to any document, with or without a block.
-/
import PromptDoc.Proofs.Document.FirstBlock

namespace PromptDoc

set_option autoImplicit false

open Text

/-- The listed paths that are none of those given. -/
def otherPaths (listed paths : List Text) : List Text :=
  listed.filter fun p => p ∉ paths.map Text.trim

theorem mem_otherPaths {listed paths : List Text} {p : Text} :
    p ∈ otherPaths listed paths ↔ p ∈ listed ∧ p ∉ paths.map Text.trim := by
  simp [otherPaths]

namespace TagSet

variable {tags : TagSet} {t : Text}

/-- What removing makes of a document whose first block is known. -/
theorem removePaths_of_firstBlock? {block : ContextBlock} (found : tags.firstBlock? t = some block)
    (paths : List Text) :
    tags.removePaths t paths =
      if otherPaths block.paths paths = block.paths then t
      else block.withPaths (otherPaths block.paths paths) := by
  have same : (block.paths.filter fun p => !(paths.map Text.trim).contains p) =
      otherPaths block.paths paths := by
    rw [otherPaths]
    congr 1
    funext p
    simp only [List.contains_eq_mem, decide_not]
  have shorter : (otherPaths block.paths paths).length = block.paths.length ↔
      otherPaths block.paths paths = block.paths := by
    constructor
    · intro length
      exact List.filter_sublist.eq_of_length length
    · intro whole
      rw [whole]
  simp only [removePaths, found, same, shorter]

/-- What removing makes of a document with a context block. -/
theorem FirstBlock.removePaths_eq (block : FirstBlock tags t) (paths : List Text) :
    tags.removePaths t paths =
      if otherPaths block.paths paths = block.paths then t
      else Piece.join block.front ++ renderBlock block.tag (otherPaths block.paths paths) ++
        Piece.join block.back :=
  removePaths_of_firstBlock? block.firstBlock?_eq paths

/-- The frame of an edit that writes a block without quotes for some of its paths. -/
theorem FirstBlock.pieces_unquoted (block : FirstBlock tags t) {kept : List Text}
    (unquoted : ∀ p ∈ block.paths, '\x22' ∉ p) (listed : ∀ p ∈ kept, p ∈ block.paths) :
    tags.pieces (Piece.join block.front ++ renderBlock block.tag kept ++ Piece.join block.back) =
      block.front ++ block.written kept :: block.back := by
  refine block.pieces_withPaths ?_ ?_ ?_ ?_
  · intro p inside
    exact block.isPathLine (listed p inside)
  · intro p inside
    exact Or.inl (listed p inside)
  · intro quote
    obtain ⟨p, inside, held⟩ := exists_mem_pathLines quote (by decide)
    exact absurd held (unquoted p inside)
  · intro ends
    have quoteless : '\x22' ∉ unlines kept := by
      intro quote
      obtain ⟨p, inside, held⟩ := mem_unlines.1 quote
      exact held.elim (unquoted p (listed p inside)) (by decide)
    exact absurd ends (not_endsValue_of_not_mem quoteless)

/-- **Removing paths changes the first context block only.** A document without a context block is
returned as it is. -/
theorem pieces_removePaths {paths : List Text}
    (unquoted : ∀ p ∈ tags.contextPaths t, '\x22' ∉ p) :
    ((∀ listed, Segment.context listed ∉ tags.segments t) ∧ tags.removePaths t paths = t) ∨
    ∃ (block : FirstBlock tags t) (source : Text),
      tags.pieces t = block.front ++
        { segment := .context block.paths, tag := some block.tag
          source := block.source } :: block.back ∧
      tags.pieces (tags.removePaths t paths) = block.front ++
        { segment := .context (otherPaths block.paths paths), tag := some block.tag
          source } :: block.back ∧
      t = Piece.join block.front ++ block.source ++ Piece.join block.back ∧
      tags.removePaths t paths = Piece.join block.front ++ source ++ Piece.join block.back ∧
      source =
        if otherPaths block.paths paths = block.paths then block.source
        else renderBlock block.tag (otherPaths block.paths paths) := by
  by_cases has : ∃ listed, Segment.context listed ∈ tags.segments t
  · right
    obtain ⟨block⟩ := nonempty_firstBlock has
    have unquoted' : ∀ p ∈ block.paths, '\x22' ∉ p := block.contextPaths_eq ▸ unquoted
    refine ⟨block, _, block.split, ?_, block.text_eq, ?_, rfl⟩
    · rw [block.removePaths_eq]
      split
      · rename_i whole
        rw [whole]
        exact block.split
      · exact block.pieces_unquoted unquoted' fun p inside => (mem_otherPaths.1 inside).1
    · rw [block.removePaths_eq]
      split
      · exact block.text_eq
      · rfl
  · left
    have without := not_exists.1 has
    refine ⟨without, ?_⟩
    rw [removePaths, firstBlock?_eq_none without]

/-- A block, with a path that it lists twice, between a note and a value that are never ended. -/
def openAround : Text :=
  "<pb-note>\n<diff branch=\"<context>a.rs\n\nb.rs\r\n  a.rs</context>/> <pb-context>a.rs".toList

theorem pieces_removePaths_openAround :
    (∀ p ∈ TagSet.standard.contextPaths openAround, '\x22' ∉ p) ∧
    ∃ (block : FirstBlock .standard openAround) (source : Text),
      TagSet.standard.pieces (TagSet.standard.removePaths openAround [" a.rs ".toList]) =
        block.front ++
          { segment := .context (otherPaths block.paths [" a.rs ".toList])
            tag := some block.tag, source } :: block.back := by
  have unquoted : ∀ p ∈ TagSet.standard.contextPaths openAround, '\x22' ∉ p := by
    decide +kernel
  have listed : Segment.context ["a.rs".toList, "b.rs".toList, "a.rs".toList] ∈
      TagSet.standard.segments openAround := by decide +kernel
  rcases @pieces_removePaths _ _ [" a.rs ".toList] unquoted with
    ⟨without, -⟩ | ⟨block, source, -, after, -⟩
  · exact absurd listed (without _)
  · exact ⟨unquoted, block, source, after⟩

/-- With a quote in a path the frame fails: the line between the quote and `/>` held a value open,
and without it the value ends inside the block. -/
example :
    TagSet.standard.segments "<diff branch=\"<context>\nq\"\na\n/>\n</context>".toList =
      [.text "<diff branch=\"".toList,
        .context ["q\"".toList, "a".toList, "/>".toList]] ∧
    TagSet.standard.segments (TagSet.standard.removePaths
        "<diff branch=\"<context>\nq\"\na\n/>\n</context>".toList ["a".toList]) =
      [.diff (some "<context>\nq".toList), .text "\n</context>".toList] := by
  decide +kernel

end TagSet

end PromptDoc
