/-
# PromptDoc.Segment.Directive — directives at the start of a text

The grammar of one directive:

* a block `<tag>…</tag>` of a context or note spelling, which ends at the first
  closing tag of the same spelling (`blockAt?`);
* a diff tag `<tag/>` or `<tag branch="value"/>`, with blanks before the
  attribute and before the end, and a value without a double quote (`diffAt?`).

`TagSet.directiveAt?` tries the context spellings, then the notes, then the
diffs. A directive is never empty (`length_of_directiveAt?`).
-/
import PromptDoc.TagSet
import PromptDoc.Segment.Basic

namespace PromptDoc

set_option autoImplicit false

def openTag (tag : Text) : Text := ['<'] ++ tag ++ ['>']

def closeTag (tag : Text) : Text := ['<', '/'] ++ tag ++ ['>']

/-- The paths of a context block: one for each line that is not blank, trimmed. -/
def parsePaths (inner : Text) : List Text :=
  ((Text.trim inner).lines.map Text.trim).filter (· ≠ [])

/-- A directive at the start of a text, and the text that follows it. -/
structure Directive where
  tag : Text
  segment : Segment
  rest : Text

namespace Directive

/-- The inside of a block of the spelling that the text starts with, and what
follows the block. -/
def blockAt? (tag t : Text) : Option (Text × Text) := do
  let inside ← (openTag tag).isPrefixOf? t
  Text.cutAt? (closeTag tag) inside

/-- The value of a branch attribute, after at least one blank, and what follows it. -/
def attributeAt? (t : Text) : Option (Text × Text) :=
  match t with
  | [] => none
  | c :: _ =>
    if Text.isBlank c then do
      let value ← "branch=\"".toList.isPrefixOf? (Text.trimStart t)
      Text.cutAt? ['\x22'] value
    else none

def endAt? (t : Text) : Option Text := ['/', '>'].isPrefixOf? (Text.trimStart t)

/-- The branch of a diff tag that the text starts with, and what follows the tag.
An empty attribute is no branch. -/
def diffAt? (tag t : Text) : Option (Option Text × Text) := do
  let inside ← ('<' :: tag).isPrefixOf? t
  match attributeAt? inside with
  | some (value, after) =>
    let rest ← endAt? after
    return (if value = [] then none else some value, rest)
  | none =>
    let rest ← endAt? inside
    return (none, rest)

def contextAt? (t tag : Text) : Option Directive :=
  (blockAt? tag t).map fun (inner, rest) => ⟨tag, .context (parsePaths inner), rest⟩

def noteAt? (t tag : Text) : Option Directive :=
  (blockAt? tag t).map fun (inner, rest) => ⟨tag, .note (Text.trim inner), rest⟩

def diffTagAt? (t tag : Text) : Option Directive :=
  (diffAt? tag t).map fun (branch, rest) => ⟨tag, .diff branch, rest⟩

def piece (d : Directive) (t : Text) : Piece where
  segment := d.segment
  tag := some d.tag
  source := t.take (t.length - d.rest.length)

theorem length_of_blockAt? {tag t inner rest : Text} (h : blockAt? tag t = some (inner, rest)) :
    rest.length < t.length := by
  simp only [blockAt?, Option.bind_eq_bind, Option.bind_eq_some_iff] at h
  obtain ⟨inside, opened, closed⟩ := h
  have whole := congrArg List.length (Text.append_of_isPrefixOf? opened)
  have shorter := Text.length_of_cutAt? closed
  simp only [List.length_append, openTag, closeTag, List.length_cons, List.length_nil] at whole shorter
  omega

theorem length_trimStart_le (t : Text) : (Text.trimStart t).length ≤ t.length :=
  (List.dropWhile_sublist _).length_le

theorem length_of_endAt? {t rest : Text} (h : endAt? t = some rest) : rest.length < t.length := by
  have whole := congrArg List.length (Text.append_of_isPrefixOf? h)
  have trimmed := length_trimStart_le t
  simp only [List.length_append, List.length_cons, List.length_nil] at whole
  omega

theorem length_of_attributeAt? {t value rest : Text} (h : attributeAt? t = some (value, rest)) :
    rest.length < t.length := by
  unfold attributeAt? at h
  split at h
  · simp at h
  · split at h
    · rename_i first others _
      simp only [Option.bind_eq_bind, Option.bind_eq_some_iff] at h
      obtain ⟨inside, opened, closed⟩ := h
      have whole := congrArg List.length (Text.append_of_isPrefixOf? opened)
      have shorter := Text.length_of_cutAt? closed
      have trimmed := length_trimStart_le (first :: others)
      simp only [List.length_append, List.length_cons, List.length_nil] at whole shorter trimmed ⊢
      omega
    · simp at h

theorem length_of_diffAt? {tag t rest : Text} {branch : Option Text}
    (h : diffAt? tag t = some (branch, rest)) : rest.length < t.length := by
  simp only [diffAt?, Option.bind_eq_bind, Option.bind_eq_some_iff] at h
  obtain ⟨inside, opened, closed⟩ := h
  have whole := congrArg List.length (Text.append_of_isPrefixOf? opened)
  simp only [List.length_append, List.length_cons] at whole
  split at closed
  · rename_i value after named
    have shorter := length_of_attributeAt? named
    simp only [Option.bind_eq_some_iff, Option.pure_def, Option.some.injEq, Prod.mk.injEq] at closed
    obtain ⟨rest', ended, _, rfl⟩ := closed
    have := length_of_endAt? ended
    omega
  · simp only [Option.bind_eq_some_iff, Option.pure_def, Option.some.injEq, Prod.mk.injEq] at closed
    obtain ⟨rest', ended, _, rfl⟩ := closed
    have := length_of_endAt? ended
    omega

end Directive

/-- The directive that a text starts with, if it starts with one. -/
def TagSet.directiveAt? (tags : TagSet) (t : Text) : Option Directive :=
  (tags.context.findSome? (Directive.contextAt? t)).or
    ((tags.note.findSome? (Directive.noteAt? t)).or
      (tags.diff.findSome? (Directive.diffTagAt? t)))

/-- A directive takes up a part of the text. -/
theorem TagSet.length_of_directiveAt? {tags : TagSet} {t : Text} {d : Directive}
    (h : tags.directiveAt? t = some d) : d.rest.length < t.length := by
  simp only [TagSet.directiveAt?, Option.or_eq_some_iff, List.findSome?_eq_some_iff] at h
  rcases h with ⟨_, tag, _, _, found, _⟩ | ⟨_, ⟨_, tag, _, _, found, _⟩ | ⟨_, _, tag, _, _, found, _⟩⟩
  · simp only [Directive.contextAt?, Option.map_eq_some_iff, Prod.exists] at found
    obtain ⟨inner, rest, block, rfl⟩ := found
    exact Directive.length_of_blockAt? block
  · simp only [Directive.noteAt?, Option.map_eq_some_iff, Prod.exists] at found
    obtain ⟨inner, rest, block, rfl⟩ := found
    exact Directive.length_of_blockAt? block
  · simp only [Directive.diffTagAt?, Option.map_eq_some_iff, Prod.exists] at found
    obtain ⟨branch, rest, tag', rfl⟩ := found
    exact Directive.length_of_diffAt? tag'

end PromptDoc
