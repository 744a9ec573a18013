/-
# PromptDoc.Proofs.Document.Adding — paths added to the first block

`newPaths listed paths` are the paths that a list lacks: trimmed, without the blank
ones, each once, in the order given. Adding puts them behind the paths that are
listed (`extendPaths_eq`), and `pieces_addPaths` says what that does to a document
that has a context block: the first one lists them too, and every other piece stays.

A path that is to stand on a line of its own must be written on one line, and `>`
would end what is open before the block, so the paths given must be free of both.
-/
import PromptDoc.Proofs.Document.FirstBlock

namespace PromptDoc

set_option autoImplicit false

open Text

/-- The paths that are not listed yet, each once. -/
def newPaths (listed paths : List Text) : List Text :=
  ((paths.map Text.trim).filter fun p => !p.isEmpty && !listed.contains p).eraseDups

theorem mem_newPaths {listed paths : List Text} {p : Text} :
    p ∈ newPaths listed paths ↔ p ∈ paths.map Text.trim ∧ p ≠ [] ∧ p ∉ listed := by
  simp [newPaths]

/-- A path that is blank or listed is not new. -/
theorem newPaths_cons_of_listed {listed paths : List Text} {path : Text}
    (old : Text.trim path = [] ∨ Text.trim path ∈ listed) :
    newPaths listed (path :: paths) = newPaths listed paths := by
  rw [newPaths, List.map_cons, List.filter_cons_of_neg, ← newPaths]
  rcases old with blank | held
  · simp [blank]
  · simp [held]

/-- A path that is new is not new again behind it. -/
theorem newPaths_cons_of_new {listed paths : List Text} {path : Text}
    (solid : Text.trim path ≠ []) (fresh : Text.trim path ∉ listed) :
    newPaths listed (path :: paths) =
      Text.trim path :: newPaths (listed ++ [Text.trim path]) paths := by
  rw [newPaths, List.map_cons, List.filter_cons_of_pos (by simp [solid, fresh]),
    List.eraseDups_cons, List.filter_filter, newPaths]
  congr 3
  funext p
  by_cases same : p = Text.trim path <;> simp [same]

theorem extendPaths_of_listed {listed : List Text} {path : Text} (paths : List Text)
    (old : Text.trim path = [] ∨ Text.trim path ∈ listed) :
    extendPaths listed (path :: paths) = extendPaths listed paths :=
  if_pos old

theorem extendPaths_of_new {listed : List Text} {path : Text} (paths : List Text)
    (new : ¬ (Text.trim path = [] ∨ Text.trim path ∈ listed)) :
    extendPaths listed (path :: paths) = extendPaths (listed ++ [Text.trim path]) paths :=
  if_neg new

/-- Adding puts the new paths behind those that are listed. -/
theorem extendPaths_eq (listed paths : List Text) :
    extendPaths listed paths = listed ++ newPaths listed paths := by
  induction paths generalizing listed with
  | nil => exact (List.append_nil listed).symm
  | cons path paths ih =>
      by_cases old : Text.trim path = [] ∨ Text.trim path ∈ listed
      · rw [extendPaths_of_listed paths old, ih, newPaths_cons_of_listed old]
      · obtain ⟨solid, fresh⟩ := not_or.1 old
        rw [extendPaths_of_new paths old, ih, newPaths_cons_of_new solid fresh, List.append_assoc,
          List.singleton_append]

namespace TagSet

variable {tags : TagSet} {t : Text}

/-- What adding makes of a document whose first block is known. -/
theorem addPaths_of_firstBlock? {block : ContextBlock} (found : tags.firstBlock? t = some block)
    (paths : List Text) :
    tags.addPaths t paths =
      if newPaths block.paths paths = [] then t
      else block.withPaths (block.paths ++ newPaths block.paths paths) := by
  simp only [addPaths, found, extendPaths_eq]
  by_cases none_ : newPaths block.paths paths = []
  · simp [none_]
  · simp [none_]

/-- What adding makes of a document with a context block. -/
theorem FirstBlock.addPaths_eq (block : FirstBlock tags t) (paths : List Text) :
    tags.addPaths t paths =
      if newPaths block.paths paths = [] then t
      else Piece.join block.front ++
        renderBlock block.tag (block.paths ++ newPaths block.paths paths) ++
          Piece.join block.back :=
  addPaths_of_firstBlock? block.firstBlock?_eq paths

/-- The frame of an edit that adds lines without `>`. -/
theorem FirstBlock.pieces_append (block : FirstBlock tags t) {added : List Text}
    (lines : ∀ p ∈ added, IsPathLine p) (free : ∀ p ∈ added, '>' ∉ p) :
    tags.pieces (Piece.join block.front ++ renderBlock block.tag (block.paths ++ added) ++
        Piece.join block.back) =
      block.front ++ block.written (block.paths ++ added) :: block.back := by
  refine block.pieces_withPaths ?_ ?_ ?_ ?_
  · intro p listed
    rcases List.mem_append.1 listed with old | new
    · exact block.isPathLine old
    · exact lines p new
  · intro p listed
    exact (List.mem_append.1 listed).imp_right (free p)
  · intro quote
    obtain ⟨p, listed, held⟩ := exists_mem_pathLines quote (by decide)
    exact mem_unlines.2 ⟨p, List.mem_append_left _ listed, Or.inl held⟩
  · intro ends
    have behind : '>' ∉ unlines added := by
      intro held
      obtain ⟨p, new, held⟩ := mem_unlines.1 held
      exact held.elim (free p new) (by decide)
    rw [unlines_append] at ends
    exact (ends.of_append_right behind).of_unlines

/-- **Adding paths changes the first context block only.** -/
theorem pieces_addPaths {paths : List Text}
    (has : ∃ listed, Segment.context listed ∈ tags.segments t)
    (fits : ∀ p ∈ paths, '\n' ∉ Text.trim p ∧ '>' ∉ Text.trim p) :
    ∃ (block : FirstBlock tags t) (source : Text),
      tags.pieces t = block.front ++
        { segment := .context block.paths, tag := some block.tag
          source := block.source } :: block.back ∧
      tags.pieces (tags.addPaths t paths) = block.front ++
        { segment := .context (block.paths ++ newPaths block.paths paths), tag := some block.tag
          source } :: block.back ∧
      t = Piece.join block.front ++ block.source ++ Piece.join block.back ∧
      tags.addPaths t paths = Piece.join block.front ++ source ++ Piece.join block.back ∧
      source =
        if newPaths block.paths paths = [] then block.source
        else renderBlock block.tag (block.paths ++ newPaths block.paths paths) := by
  obtain ⟨block⟩ := nonempty_firstBlock has
  refine ⟨block, _, block.split, ?_, block.text_eq, ?_, rfl⟩
  · rw [block.addPaths_eq]
    split
    · rename_i none_
      rw [none_, List.append_nil]
      exact block.split
    · have new : ∀ p ∈ newPaths block.paths paths, IsPathLine p ∧ '>' ∉ p := by
        intro p listed
        obtain ⟨given, solid, -⟩ := mem_newPaths.1 listed
        obtain ⟨path, inside, rfl⟩ := List.mem_map.1 given
        exact ⟨⟨solid, trim_trim path, (fits path inside).1⟩, (fits path inside).2⟩
      exact block.pieces_append (fun p listed => (new p listed).1) fun p listed => (new p listed).2
  · rw [block.addPaths_eq]
    split
    · exact block.text_eq
    · rfl

/-- A block between a note that is never closed and a diff tag whose value is. -/
def unfinished : Text :=
  "<pb-note>\n<diff branch=\"<context>a.rs\r\n\r\n  b.rs</context>\" <diff/>".toList

theorem pieces_addPaths_unfinished :
    (∃ listed, Segment.context listed ∈ TagSet.standard.segments unfinished) ∧
    (∀ p ∈ [" c\".rs ".toList, "a.rs".toList, []], '\n' ∉ Text.trim p ∧ '>' ∉ Text.trim p) ∧
    ∃ (block : FirstBlock .standard unfinished) (source : Text),
      TagSet.standard.pieces
          (TagSet.standard.addPaths unfinished [" c\".rs ".toList, "a.rs".toList, []]) =
        block.front ++
          { segment := .context
              (block.paths ++ newPaths block.paths [" c\".rs ".toList, "a.rs".toList, []])
            tag := some block.tag, source } :: block.back := by
  have listed : Segment.context ["a.rs".toList, "b.rs".toList] ∈
      TagSet.standard.segments unfinished := by decide +kernel
  have fits : ∀ p ∈ [" c\".rs ".toList, "a.rs".toList, []],
      '\n' ∉ Text.trim p ∧ '>' ∉ Text.trim p := by decide
  obtain ⟨block, source, -, after, -⟩ := pieces_addPaths ⟨_, listed⟩ fits
  exact ⟨⟨_, listed⟩, fits, block, source, after⟩

end TagSet

end PromptDoc
