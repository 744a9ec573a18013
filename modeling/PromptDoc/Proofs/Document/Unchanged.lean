/-
# PromptDoc.Proofs.Document.Unchanged — when an edit leaves a document as it is

An edit that has nothing to do returns the very text that it was given. The other half is
that an edit with something to do makes another text, whatever the paths are that it was
given: `unchanged_iff` says so without a condition on them, and says what a `Document`
answers then.

A block that is written anew cannot be the old one by chance. If it were, it would be read
as the old one is, and what is read from a listing is read path by path
(`FirstBlock.flatMap_of_renderBlock_eq`): a path that is added has lines of its own, however
many, and one that is taken out is missing. A block that is put behind a document has a `<`
where the document had blanks at most (`appendBlock_ne`).
-/
import PromptDoc.Document.Versioned
import PromptDoc.Proofs.Document.Removing
import PromptDoc.Proofs.Document.Stepwise

namespace PromptDoc

set_option autoImplicit false

open Text

/-! ## Lists that do not change -/

theorem newPaths_eq_nil_iff {listed paths : List Text} :
    newPaths listed paths = [] ↔ ∀ p ∈ paths, Blank p ∨ Text.trim p ∈ listed := by
  constructor
  · intro none_ p given
    by_cases blank : Blank p
    · exact Or.inl blank
    · right
      by_contra fresh
      have new : Text.trim p ∈ newPaths listed paths :=
        mem_newPaths.2 ⟨List.mem_map_of_mem given, mt trim_eq_nil_iff.1 blank, fresh⟩
      rw [none_] at new
      cases new
  · intro old
    refine List.eq_nil_iff_forall_not_mem.2 fun p new => ?_
    obtain ⟨given, solid, fresh⟩ := mem_newPaths.1 new
    obtain ⟨path, inside, rfl⟩ := List.mem_map.1 given
    exact (old path inside).elim (fun blank => solid (trim_eq_nil_iff.2 blank)) fresh

theorem otherPaths_eq_self_iff {listed paths : List Text} :
    otherPaths listed paths = listed ↔ ∀ p ∈ listed, ∀ q ∈ paths, p ≠ Text.trim q := by
  simp only [otherPaths, List.filter_eq_self, decide_eq_true_eq, List.mem_map, not_exists, not_and]
  exact forall₂_congr fun p _ => forall₂_congr fun q _ => ne_comm

/-- A new path has lines of its own. -/
theorem flatMap_newPaths_eq_nil_iff {listed paths : List Text} :
    (newPaths listed paths).flatMap pathLines = [] ↔ newPaths listed paths = [] := by
  constructor
  · intro none_
    refine List.eq_nil_iff_forall_not_mem.2 fun p new => ?_
    obtain ⟨given, solid, -⟩ := mem_newPaths.1 new
    obtain ⟨path, -, rfl⟩ := List.mem_map.1 given
    have blank : Blank (Text.trim path) :=
      pathLines_eq_nil_iff.1 (List.flatMap_eq_nil_iff.1 none_ _ new)
    rw [← trim_eq_nil_iff, trim_trim] at blank
    exact solid blank
  · intro none_
    rw [none_, List.flatMap_nil]

namespace TagSet

variable {tags : TagSet} {t : Text}

/-! ## A block that is written anew -/

/-- A listing that is written as the block stands is read as the block is. -/
theorem FirstBlock.flatMap_of_renderBlock_eq (block : FirstBlock tags t) {listed : List Text}
    (same : renderBlock block.tag listed = block.source) :
    listed.flatMap pathLines = block.paths := by
  rw [renderBlock_eq, FirstBlock.source, List.append_left_inj, List.append_right_inj] at same
  rw [FirstBlock.paths, ← same, ← List.singleton_append, pathLines_append_left blank_newline,
    pathLines_unlines_eq]

theorem FirstBlock.join_eq_iff (block : FirstBlock tags t) (written : Text) :
    Piece.join block.front ++ written ++ Piece.join block.back = t ↔ written = block.source := by
  have whole : t = Piece.join block.front ++ block.source ++ Piece.join block.back := block.text_eq
  constructor
  · intro same
    exact List.append_cancel_left (List.append_cancel_right (same.trans whole))
  · rintro rfl
    exact whole.symm

theorem FirstBlock.addPaths_eq_self_iff (block : FirstBlock tags t) (paths : List Text) :
    tags.addPaths t paths = t ↔ newPaths block.paths paths = [] := by
  rw [block.addPaths_eq, ite_eq_left_iff, block.join_eq_iff]
  refine ⟨fun unchanged => ?_, fun none_ some_ => absurd none_ some_⟩
  by_contra some_
  have read := block.flatMap_of_renderBlock_eq (unchanged some_)
  rw [List.flatMap_append, flatMap_pathLines fun _ => block.isPathLine,
    List.append_right_eq_self, flatMap_newPaths_eq_nil_iff] at read
  exact some_ read

theorem FirstBlock.removePaths_eq_self_iff (block : FirstBlock tags t) (paths : List Text) :
    tags.removePaths t paths = t ↔ otherPaths block.paths paths = block.paths := by
  rw [block.removePaths_eq, ite_eq_left_iff, block.join_eq_iff]
  refine ⟨fun unchanged => ?_, fun whole other => absurd whole other⟩
  by_contra other
  have read := block.flatMap_of_renderBlock_eq (unchanged other)
  rw [flatMap_pathLines fun p inside => block.isPathLine (mem_otherPaths.1 inside).1]
    at read
  exact other read

/-! ## A block that is put behind -/

/-- A document with something solid behind it is another one. -/
theorem appendBlock_ne {block : Text} (solid : ¬ Blank block) : appendBlock t block ≠ t := by
  intro same
  obtain ⟨trailing, blank, whole⟩ := exists_trimEnd t
  nth_rewrite 2 [whole] at same
  rw [appendBlock_eq, List.append_assoc, List.append_assoc, List.append_right_inj] at same
  rw [← same, blank_append, blank_append] at blank
  exact solid blank.2.1

theorem not_blank_renderBlock (tag : Text) (listed : List Text) :
    ¬ Blank (renderBlock tag listed) := by
  intro blank
  exact blank.not_mem (by decide : isBlank '<' = false) (by simp [renderBlock, openTag])

theorem addPaths_eq_self_iff_of_without
    (without : ∀ listed, Segment.context listed ∉ tags.segments t) (paths : List Text) :
    tags.addPaths t paths = t ↔ tags.context = [] ∨ newPaths [] paths = [] := by
  cases primary : tags.primaryContext? with
  | none =>
      simp only [addPaths_of_primaryContext?_eq_none primary without,
        List.head?_eq_none_iff.1 primary, true_or]
  | some tag =>
      have spelled : tags.context ≠ [] := List.ne_nil_of_mem (List.mem_of_mem_head? primary)
      by_cases none_ : newPaths [] paths = []
      · simp [addPaths_of_without primary without, none_]
      · rw [addPaths_of_firstBlock?_eq_none primary (firstBlock?_eq_none without) none_]
        simp [appendBlock_ne (not_blank_renderBlock tag _), spelled, none_]

/-! ## What a document answers -/

/-- Adding the paths has nothing to do. -/
def AddsNothing (tags : TagSet) (t : Text) (paths : List Text) : Prop :=
  tags.context = [] ∨ ∀ p ∈ paths, Blank p ∨ Text.trim p ∈ tags.contextPaths t

/-- Removing the paths has nothing to do. -/
def RemovesNothing (tags : TagSet) (t : Text) (paths : List Text) : Prop :=
  ∀ p ∈ tags.contextPaths t, ∀ q ∈ paths, p ≠ Text.trim q

theorem contextPaths_of_without (without : ∀ listed, Segment.context listed ∉ tags.segments t) :
    tags.contextPaths t = [] := by
  rw [contextPaths, firstBlock?_eq_none without]

theorem addPaths_eq_self_iff (tags : TagSet) (t : Text) (paths : List Text) :
    tags.addPaths t paths = t ↔ tags.AddsNothing t paths := by
  rw [AddsNothing, ← newPaths_eq_nil_iff]
  by_cases has : ∃ listed, Segment.context listed ∈ tags.segments t
  · obtain ⟨block⟩ := nonempty_firstBlock has
    have spelled : tags.context ≠ [] := List.ne_nil_of_mem block.known
    rw [block.addPaths_eq_self_iff, block.contextPaths_eq, or_iff_right spelled]
  · have without := not_exists.1 has
    rw [addPaths_eq_self_iff_of_without without, contextPaths_of_without without]

theorem removePaths_eq_self_iff (tags : TagSet) (t : Text) (paths : List Text) :
    tags.removePaths t paths = t ↔ tags.RemovesNothing t paths := by
  rw [RemovesNothing, ← otherPaths_eq_self_iff]
  by_cases has : ∃ listed, Segment.context listed ∈ tags.segments t
  · obtain ⟨block⟩ := nonempty_firstBlock has
    rw [block.removePaths_eq_self_iff, block.contextPaths_eq]
  · have without := not_exists.1 has
    simp [removePaths, firstBlock?_eq_none without, contextPaths_of_without without, otherPaths]

end TagSet

namespace Document

/-- Only a text that differs is taken. -/
theorem edit_eq_iff (d : Document) (text : Text) :
    (d.edit text = (false, d) ↔ text = d.text) ∧
      (d.edit text = (true, { text, version := d.version + 1 }) ↔ text ≠ d.text) := by
  rw [edit]
  split
  · rename_i same
    simp [same]
  · rename_i other
    simp [other]

end Document

/-- **An edit changes a document exactly if it has something to do.**  A path that is neither blank
nor listed makes another text, and so does one that is listed and taken out; else the text stays the
same, byte for byte. A versioned document takes the edit, and raises its version, in just these
cases. -/
theorem TagSet.unchanged_iff (tags : TagSet) (t : Text) (paths : List Text) :
    (tags.addPaths t paths = t ↔ tags.AddsNothing t paths) ∧
    (tags.removePaths t paths = t ↔ tags.RemovesNothing t paths) ∧
    ∀ version,
      let d : Document := { text := t, version }
      (d.addPaths tags paths = (false, d) ↔ tags.AddsNothing t paths) ∧
      (d.addPaths tags paths =
          (true, { text := tags.addPaths t paths, version := version + 1 }) ↔
        ¬ tags.AddsNothing t paths) ∧
      (d.removePaths tags paths = (false, d) ↔ tags.RemovesNothing t paths) ∧
      (d.removePaths tags paths =
          (true, { text := tags.removePaths t paths, version := version + 1 }) ↔
        ¬ tags.RemovesNothing t paths) := by
  have adds := tags.addPaths_eq_self_iff t paths
  have removes := tags.removePaths_eq_self_iff t paths
  refine ⟨adds, removes, fun version => ?_⟩
  intro d
  obtain ⟨keepsAdd, takesAdd⟩ := d.edit_eq_iff (tags.addPaths t paths)
  obtain ⟨keepsRemove, takesRemove⟩ := d.edit_eq_iff (tags.removePaths t paths)
  rw [← adds, ← removes]
  exact ⟨keepsAdd, takesAdd, keepsRemove, takesRemove⟩

/-- A path that closes the block and one of two lines are written as they are given, though no block
can list them, and the text is another one. -/
example :
    TagSet.standard.addPaths "<context>\na.rs\n</context>".toList
        ["a.rs\n</context>".toList, "a.rs\na.rs".toList] =
      "<context>\na.rs\na.rs\n</context>\na.rs\na.rs\n</context>".toList := by
  decide +kernel

end PromptDoc
