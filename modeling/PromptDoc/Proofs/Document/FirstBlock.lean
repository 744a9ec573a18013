/-
# PromptDoc.Proofs.Document.FirstBlock — the block that an edit is about

An edit reads and writes the first context block of its document. `TagSet.FirstBlock`
is that block with the pieces around it: `nonempty_firstBlock` says that there is one
as soon as a context segment is read, and `FirstBlock.firstBlock?_eq` that the search
finds it.

`FirstBlock.pieces_withPaths` is the frame of every edit: the block may list other
paths, and the pieces around it are read as before, if the new listing ends nothing
that was open before the block (`screens_renderBlock`).
-/
import PromptDoc.Proofs.Document.Rendering

namespace PromptDoc

set_option autoImplicit false

open Text

namespace TagSet

/-- The first context block of a document, and the pieces around it. -/
structure FirstBlock (tags : TagSet) (t : Text) where
  front : List Piece
  tag : Text
  inner : Text
  back : List Piece
  known : tag ∈ tags.context
  bare : ¬ closeTag tag <:+: inner
  split : tags.pieces t = front ++
    { segment := .context (pathLines inner), tag := some tag
      source := openTag tag ++ inner ++ closeTag tag } :: back
  first : ∀ p ∈ front, ∀ paths, p.segment ≠ .context paths

variable {tags : TagSet} {t : Text}

/-- A list that holds a context segment holds a first one. -/
theorem exists_first_context {ps : List Piece} {p : Piece} {listed : List Text} (inside : p ∈ ps)
    (context : p.segment = .context listed) :
    ∃ front q back listed', ps = front ++ q :: back ∧ q.segment = .context listed' ∧
      ∀ p ∈ front, ∀ paths, p.segment ≠ .context paths := by
  induction ps with
  | nil => cases inside
  | cons q qs ih =>
      by_cases here : ∃ listed', q.segment = .context listed'
      · obtain ⟨listed', context'⟩ := here
        exact ⟨[], q, qs, listed', rfl, context', fun _ none_ => absurd none_ List.not_mem_nil⟩
      · have other := not_exists.1 here
        rcases List.mem_cons.1 inside with rfl | later
        · exact absurd context (other listed)
        · obtain ⟨front, r, back, listed', rfl, context', first⟩ := ih later
          exact ⟨q :: front, r, back, listed', rfl, context', List.forall_mem_cons.2 ⟨other, first⟩⟩

/-- The first context piece of a document is its first block. -/
theorem exists_firstBlock {front back : List Piece} {p : Piece} {listed : List Text}
    (split : tags.pieces t = front ++ p :: back) (context : p.segment = .context listed)
    (first : ∀ p ∈ front, ∀ paths, p.segment ≠ .context paths) :
    ∃ block : FirstBlock tags t, block.front = front ∧ block.back = back ∧
      p = { segment := .context (pathLines block.inner), tag := some block.tag
            source := openTag block.tag ++ block.inner ++ closeTag block.tag } := by
  obtain ⟨tag, inner, known, bare, rfl⟩ :=
    (isPiece_of_mem (t := t) (by simp [split] : p ∈ tags.pieces t)).exists_inner context
  exact ⟨⟨front, tag, inner, back, known, bare, split, first⟩, rfl, rfl, rfl⟩

/-- A document that has a context segment has a first one. -/
theorem nonempty_firstBlock (has : ∃ listed, Segment.context listed ∈ tags.segments t) :
    Nonempty (FirstBlock tags t) := by
  obtain ⟨listed, inside⟩ := has
  obtain ⟨p, member, context⟩ := List.mem_map.1 inside
  obtain ⟨front, q, back, listed', split, context', first⟩ := exists_first_context member context
  obtain ⟨block, -⟩ := exists_firstBlock split context' first
  exact ⟨block⟩

/-- A document without a context segment has no first block. -/
theorem firstBlock?_eq_none (without : ∀ listed, Segment.context listed ∉ tags.segments t) :
    tags.firstBlock? t = none := by
  have other : ∀ p ∈ tags.pieces t, ∀ paths, p.segment ≠ .context paths :=
    fun p inside paths context => without paths (List.mem_map.2 ⟨p, inside, context⟩)
  rw [firstBlock?]
  generalize tags.pieces t = ps at other
  induction ps with
  | nil => rfl
  | cons p ps ih =>
      have here := other p List.mem_cons_self
      rw [ContextBlock.first?, ih fun q inside => other q (List.mem_cons_of_mem _ inside)]
      split
      · rename_i context _
        exact absurd context (here _)
      · rfl

end TagSet

/-- The search passes over the pieces before the block. -/
theorem ContextBlock.first?_append {front back : List Piece} {paths : List Text} {tag source : Text}
    (first : ∀ p ∈ front, ∀ paths, p.segment ≠ .context paths) :
    first? (front ++ { segment := .context paths, tag := some tag, source } :: back) =
      some ⟨Piece.join front, tag, paths, Piece.join back⟩ := by
  induction front with
  | nil => rfl
  | cons p ps ih =>
      have later := ih fun q inside => first q (List.mem_cons_of_mem _ inside)
      have here := first p List.mem_cons_self
      rw [List.cons_append, first?, later]
      split
      · rename_i context _
        exact absurd context (here _)
      · simp

namespace TagSet.FirstBlock

variable {tags : TagSet} {t : Text} (block : FirstBlock tags t)

def paths : List Text := pathLines block.inner

theorem isPathLine {path : Text} (listed : path ∈ block.paths) : IsPathLine path :=
  isPathLine_of_mem listed

def source : Text := openTag block.tag ++ block.inner ++ closeTag block.tag

/-- The block as it is written for other paths. -/
def written (paths : List Text) : Piece where
  segment := .context paths
  tag := some block.tag
  source := renderBlock block.tag paths

theorem text_eq : t = Piece.join block.front ++ block.source ++ Piece.join block.back := by
  have whole := join_pieces tags t
  rw [block.split] at whole
  simpa [source] using whole.symm

theorem firstBlock?_eq : tags.firstBlock? t =
    some ⟨Piece.join block.front, block.tag, block.paths, Piece.join block.back⟩ := by
  rw [firstBlock?, block.split]
  exact ContextBlock.first?_append block.first

theorem contextPaths_eq : tags.contextPaths t = block.paths := by
  rw [contextPaths, block.firstBlock?_eq]

/-- **The frame of an edit.**  The block may be written with other paths, and the rest of the
document is read as it was. -/
theorem pieces_withPaths {paths : List Text} (lines : ∀ p ∈ paths, IsPathLine p)
    (kept : ∀ p ∈ paths, p ∈ block.paths ∨ '>' ∉ p)
    (quotes : '\x22' ∈ block.inner → '\x22' ∈ unlines paths)
    (values : EndsValue (unlines paths) → EndsValue block.inner) :
    tags.pieces (Piece.join block.front ++ renderBlock block.tag paths ++ Piece.join block.back) =
      block.front ++ block.written paths :: block.back := by
  have name := isName_of_mem_context block.known
  have stays : ∀ p ∈ paths, ¬ closeTag block.tag <:+: p := by
    intro p listed stands
    rcases kept p listed with read | free
    · exact block.bare (stands.trans (infix_of_mem_pathLines read))
    · exact free (stands.subset (by simp [closeTag]))
  have begins : tags.Begins (block.written paths).source ⟨block.tag, .context paths, []⟩ :=
    begins_renderBlock block.known lines stays
  have screens : Screens block.source (block.written paths).source (Piece.join block.back) :=
    screens_renderBlock name kept quotes values
  rw [List.append_assoc]
  exact pieces_replace block.split (by simp) begins rfl screens

end TagSet.FirstBlock

end PromptDoc
