/-
# PromptDoc.Proofs.Document.Undoing — taking out what was added

Removing the paths that were just added gives the document back, byte for byte
(`removePaths_addPaths`). The second edit finds the block that the first one wrote, with
the same text around it, and of what is listed there it takes out what is new and nothing
else, since no path was given that was listed before.

It writes the block in its plain form, so a block that stood there in another form, with
blanks around its paths say, does not come back. A block in plain form does, whatever
stands around it: notes and values that are not ended, other spellings, other blocks.
-/
import PromptDoc.Proofs.Document.Unchanged

namespace PromptDoc

set_option autoImplicit false

open Text

/-- Of a list and what is new to it, removing what was given leaves the list. -/
theorem otherPaths_append_newPaths {listed paths : List Text}
    (fresh : ∀ p ∈ paths, Text.trim p ∉ listed) :
    otherPaths (listed ++ newPaths listed paths) paths = listed := by
  have kept : otherPaths listed paths = listed := by
    refine otherPaths_eq_self_iff.2 fun p inside q given same => ?_
    exact fresh q given (same ▸ inside)
  have gone : otherPaths (newPaths listed paths) paths = [] := by
    refine List.eq_nil_iff_forall_not_mem.2 fun p inside => ?_
    obtain ⟨new, other⟩ := mem_otherPaths.1 inside
    exact other (mem_newPaths.1 new).1
  rw [otherPaths] at kept gone ⊢
  rw [List.filter_append, kept, gone, List.append_nil]

namespace TagSet

variable {tags : TagSet} {t : Text} {paths : List Text}

/-- The block that adding wrote is written once more, without what was added. -/
theorem FirstBlock.removePaths_addPaths_eq (block : FirstBlock tags t)
    (fits : ∀ p ∈ paths, '\n' ∉ Text.trim p ∧ '>' ∉ Text.trim p)
    (fresh : ∀ p ∈ paths, Text.trim p ∉ block.paths) :
    tags.removePaths (tags.addPaths t paths) paths =
      if newPaths block.paths paths = [] then t
      else Piece.join block.front ++ renderBlock block.tag block.paths ++
        Piece.join block.back := by
  have left := otherPaths_append_newPaths fresh
  rw [block.addPaths_eq]
  split
  · rename_i none_
    rw [none_, List.append_nil] at left
    rw [block.removePaths_eq, if_pos left]
  · rename_i some_
    have found := block.firstBlock?_append (newPaths_fit block.paths fits)
    have shorter : block.paths ≠ block.paths ++ newPaths block.paths paths := by
      intro same
      exact some_ (List.append_right_eq_self.1 same.symm)
    rw [removePaths_of_firstBlock? found]
    simp only [left]
    rw [if_neg shorter]
    rfl

/-- **Removing undoes adding.**  If the first context block stands in the form in which blocks are
written, and none of the paths is listed there, the document comes back. -/
theorem removePaths_addPaths {front back : List Piece} {tag : Text} {listed : List Text}
    (split : tags.pieces t = front ++
      { segment := .context listed, tag := some tag, source := renderBlock tag listed } :: back)
    (first : ∀ p ∈ front, ∀ other, p.segment ≠ .context other)
    (fits : ∀ p ∈ paths, '\n' ∉ Text.trim p ∧ '>' ∉ Text.trim p)
    (fresh : ∀ p ∈ paths, Text.trim p ∉ listed) :
    tags.removePaths (tags.addPaths t paths) paths = t := by
  obtain ⟨block, -, -, piece⟩ := exists_firstBlock split rfl first
  simp only [Piece.mk.injEq, Segment.context.injEq, Option.some.injEq] at piece
  obtain ⟨rfl, rfl, rendered⟩ := piece
  rw [block.removePaths_addPaths_eq fits fresh, ite_eq_left_iff]
  intro _
  rw [block.join_eq_iff]
  exact rendered

/-- An empty block between a note and a value that are never ended, and a block behind it. -/
def emptied : Text :=
  "<pb-note>\n<diff branch=\"<context>\n</context>\"\n<pb-context>c.rs</pb-context><diff/>".toList

def beforeEmptied : List Piece := Piece.plain "<pb-note>\n<diff branch=\"".toList

def behindEmptied : List Piece :=
  Piece.plain "\"\n".toList ++
    [{ segment := .context ["c.rs".toList], tag := some "pb-context".toList
       source := "<pb-context>c.rs</pb-context>".toList },
      { segment := .diff none, tag := some "diff".toList, source := "<diff/>".toList }]

theorem removePaths_addPaths_emptied :
    let given := [" c\".rs ".toList, "c.rs".toList, [], "c\".rs".toList]
    TagSet.standard.pieces emptied = beforeEmptied ++
      { segment := .context [], tag := some "context".toList
        source := renderBlock "context".toList [] } :: behindEmptied ∧
    (∀ p ∈ beforeEmptied, ∀ other, p.segment ≠ .context other) ∧
    (∀ p ∈ given, '\n' ∉ Text.trim p ∧ '>' ∉ Text.trim p) ∧
    (∀ p ∈ given, Text.trim p ∉ ([] : List Text)) ∧
    TagSet.standard.removePaths (TagSet.standard.addPaths emptied given) given = emptied := by
  intro given
  have split : TagSet.standard.pieces emptied = beforeEmptied ++
      { segment := .context [], tag := some "context".toList
        source := renderBlock "context".toList [] } :: behindEmptied := by decide +kernel
  have first : ∀ p ∈ beforeEmptied, ∀ other, p.segment ≠ .context other := by
    simp [beforeEmptied]
  have fits : ∀ p ∈ given, '\n' ∉ Text.trim p ∧ '>' ∉ Text.trim p := by decide
  have fresh : ∀ p ∈ given, Text.trim p ∉ ([] : List Text) := fun _ _ => List.not_mem_nil
  exact ⟨split, first, fits, fresh, removePaths_addPaths split first fits fresh⟩

/-- A block in another form is written plainly. -/
example :
    TagSet.standard.removePaths
        (TagSet.standard.addPaths "<context> a.rs</context>".toList ["b.rs".toList])
        ["b.rs".toList] = "<context>\na.rs\n</context>".toList := by
  decide +kernel

end TagSet

end PromptDoc
