/-
# PromptDoc.Proofs.Segment.Grammar — what a directive is

`TagSet.Begins` says what it is for a text to begin with a directive, without
saying how one is looked for:

* a block `<tag>inner</tag>` of a context or note spelling, ended by the first
  closing tag of that spelling behind the opening one (`Block`);
* a diff tag of a diff spelling, with or without a `BranchAttribute`, blanks
  before its end.

`directiveAt?_eq_some_iff` is the agreement with the reader, in both directions.
Tag names end where the first other character stands, so at most one spelling can
be read at a place (`spelling`); since no spelling is listed twice, the order in
which the lists are tried decides nothing (`directiveAt?_eq`).

A directive does not depend on what follows it (`Begins.local`).
-/
import Mathlib.Data.List.TakeWhile
import PromptDoc.Proofs.Segment.PathLines
import PromptDoc.Proofs.Text.Cut

namespace PromptDoc

set_option autoImplicit false

open Text

/-! ## Tag names -/

namespace Spellings

theorem isNameChar_of_mem {tag : Text} {c : Char} (name : isName tag = true) (inside : c ∈ tag) :
    isNameChar c = true := by
  cases tag with
  | nil => cases name
  | cons first others =>
      simp only [isName, Bool.and_eq_true, List.all_eq_true] at name
      rcases List.mem_cons.1 inside with rfl | later
      · simp [isNameChar, Char.isAlphanum, name.1]
      · exact name.2 c later

/-- A tag name holds name characters only. -/
theorem not_mem_name {tag : Text} {c : Char} (name : isName tag = true)
    (other : isNameChar c = false) : c ∉ tag := by
  intro inside
  rw [isNameChar_of_mem name inside] at other
  cases other

end Spellings

namespace TagSet

variable {tags : TagSet} {tag : Text}

theorem isName_of_mem_context (known : tag ∈ tags.context) : Spellings.isName tag = true :=
  tags.accepted.names tag (by simp [Spellings.all, known])

theorem isName_of_mem_note (known : tag ∈ tags.note) : Spellings.isName tag = true :=
  tags.accepted.names tag (by simp [Spellings.all, known])

theorem isName_of_mem_diff (known : tag ∈ tags.diff) : Spellings.isName tag = true :=
  tags.accepted.names tag (by simp [Spellings.all, known])

theorem not_mem_note_of_mem_context (known : tag ∈ tags.context) : tag ∉ tags.note := by
  have apart := (List.nodup_append.1 tags.accepted.nodup).2.2
  intro listed
  exact apart tag (List.mem_append_left _ known) tag listed rfl

theorem not_mem_diff_of_mem_context (known : tag ∈ tags.context) : tag ∉ tags.diff := by
  have apart := (List.nodup_append.1 (List.nodup_append.1 tags.accepted.nodup).1).2.2
  intro listed
  exact apart tag known tag listed rfl

theorem not_mem_diff_of_mem_note (known : tag ∈ tags.note) : tag ∉ tags.diff := by
  have apart := (List.nodup_append.1 tags.accepted.nodup).2.2
  intro listed
  exact apart tag (List.mem_append_right _ listed) tag known rfl

end TagSet

section Tags

variable {tag : Text} (name : Spellings.isName tag = true)
include name

theorem open_not_mem_tail_openTag : '<' ∉ (openTag tag).tail := by
  simp [openTag, Spellings.not_mem_name name (by decide : Spellings.isNameChar '<' = false)]

theorem open_not_mem_tail_closeTag : '<' ∉ (closeTag tag).tail := by
  simp [closeTag, Spellings.not_mem_name name (by decide : Spellings.isNameChar '<' = false)]

theorem close_not_mem_dropLast_closeTag : '>' ∉ (closeTag tag).dropLast := by
  rw [closeTag, List.dropLast_concat]
  simp [Spellings.not_mem_name name (by decide : Spellings.isNameChar '>' = false)]

theorem newline_not_mem_openTag : '\n' ∉ openTag tag := by
  simp [openTag, Spellings.not_mem_name name (by decide : Spellings.isNameChar '\n' = false)]

theorem newline_not_mem_closeTag : '\n' ∉ closeTag tag := by
  simp [closeTag, Spellings.not_mem_name name (by decide : Spellings.isNameChar '\n' = false)]

end Tags

/-! ## The grammar -/

/-- The text begins with a block of the spelling, ended by the first closing tag. -/
structure Block (tag t inner rest : Text) : Prop where
  text : t = openTag tag ++ inner ++ closeTag tag ++ rest
  first : ∀ back, back <:+ inner → back ≠ [] → ¬ closeTag tag <+: back ++ closeTag tag ++ rest

/-- What may stand behind the name of a diff tag, and the branch that it names: nothing, or
blanks and a quoted value. -/
inductive BranchAttribute : Text → Option Text → Prop
  | absent : BranchAttribute [] none
  | present {blanks value : Text} (apart : blanks ≠ []) (blank : Blank blanks)
      (quoted : '\x22' ∉ value) :
      BranchAttribute (blanks ++ "branch=\"".toList ++ value ++ ['\x22'])
        (if value = [] then none else some value)

/-- The text begins with the directive, of which `rest` is what follows it. -/
inductive TagSet.Begins (tags : TagSet) (t : Text) : Directive → Prop
  | context {tag inner rest : Text} (known : tag ∈ tags.context) (block : Block tag t inner rest) :
      tags.Begins t ⟨tag, .context (pathLines inner), rest⟩
  | note {tag inner rest : Text} (known : tag ∈ tags.note) (block : Block tag t inner rest) :
      tags.Begins t ⟨tag, .note (Text.trim inner), rest⟩
  | diff {tag written blanks rest : Text} {branch : Option Text} (known : tag ∈ tags.diff)
      (named : BranchAttribute written branch) (blank : Blank blanks)
      (text : t = ['<'] ++ tag ++ written ++ blanks ++ ['/', '>'] ++ rest) :
      tags.Begins t ⟨tag, .diff branch, rest⟩

/-- The inside of a block holds no closing tag, and nothing else is asked of it: a closing tag
cannot overlap the next. -/
theorem block_iff {tag t inner rest : Text} (name : Spellings.isName tag = true) :
    Block tag t inner rest ↔
      t = openTag tag ++ inner ++ closeTag tag ++ rest ∧ ¬ closeTag tag <:+: inner := by
  constructor
  · rintro ⟨text, first⟩
    refine ⟨text, ?_⟩
    rintro ⟨front, back, rfl⟩
    refine first (closeTag tag ++ back) ⟨front, by simp⟩ (by simp [closeTag]) ?_
    simp only [List.append_assoc]
    exact List.prefix_append _ _
  · rintro ⟨text, bare⟩
    refine ⟨text, fun back suffix nonempty front => bare ?_⟩
    have inside : closeTag tag <+: back :=
      prefix_of_prefix_append (open_not_mem_tail_closeTag name) nonempty
        (by simpa [closeTag] using front)
    exact inside.isInfix.trans suffix.isInfix

namespace Directive

/-! ## The readers -/

theorem blockAt?_eq_some_iff {tag t inner rest : Text} :
    blockAt? tag t = some (inner, rest) ↔ Block tag t inner rest := by
  simp only [blockAt?, Option.bind_eq_bind, Option.bind_eq_some_iff, isPrefixOf?_eq_some_iff,
    cutAt?_eq_some_iff]
  constructor
  · rintro ⟨inside, rfl, rfl, first⟩
    exact ⟨by simp, first⟩
  · rintro ⟨rfl, first⟩
    exact ⟨inner ++ closeTag tag ++ rest, by simp, rfl, first⟩

theorem attributeAt?_eq_some_iff {t value rest : Text} :
    attributeAt? t = some (value, rest) ↔
      ∃ blanks, blanks ≠ [] ∧ Blank blanks ∧ '\x22' ∉ value ∧
        t = blanks ++ "branch=\"".toList ++ value ++ '\x22' :: rest := by
  constructor
  · intro h
    unfold attributeAt? at h
    split at h
    · cases h
    · rename_i first others
      split at h
      · rename_i blank
        simp only [Option.bind_eq_bind, Option.bind_eq_some_iff, isPrefixOf?_eq_some_iff,
          cutAt?_singleton_eq_some_iff] at h
        obtain ⟨_, key, rfl, quoted⟩ := h
        obtain ⟨blanks, allBlank, whole⟩ := exists_trimStart (first :: others)
        refine ⟨blanks, ?_, allBlank, quoted, ?_⟩
        · rintro rfl
          rw [List.nil_append, key] at whole
          have letter : first = 'b' := (List.cons.inj whole).1
          rw [letter] at blank
          exact absurd blank (by decide)
        · rw [whole, key]
          simp only [List.append_assoc]
      · cases h
  · rintro ⟨blanks, apart, blank, quoted, rfl⟩
    cases blanks with
    | nil => exact absurd rfl apart
    | cons c cs =>
        have key : trimStart (c :: cs ++ ("branch=\"".toList ++ (value ++ '\x22' :: rest))) =
            "branch=\"".toList ++ (value ++ '\x22' :: rest) := by
          rw [trimStart_append blank]
          exact trimStart_of_solid (by decide)
        simp only [List.append_assoc]
        rw [List.cons_append] at key ⊢
        simp only [attributeAt?, (blank_cons.1 blank).1, if_true, key, Option.bind_eq_bind,
          Option.bind_eq_some_iff, isPrefixOf?_eq_some_iff, cutAt?_singleton_eq_some_iff]
        exact ⟨_, rfl, rfl, quoted⟩

theorem endAt?_eq_some_iff {t rest : Text} :
    endAt? t = some rest ↔ ∃ blanks, Blank blanks ∧ t = blanks ++ ['/', '>'] ++ rest := by
  rw [endAt?, isPrefixOf?_eq_some_iff]
  constructor
  · intro h
    obtain ⟨blanks, blank, whole⟩ := exists_trimStart t
    exact ⟨blanks, blank, by rw [List.append_assoc, ← h, ← whole]⟩
  · rintro ⟨blanks, blank, rfl⟩
    rw [List.append_assoc, trimStart_append blank]
    exact trimStart_of_solid (by decide)

/-- An attribute does not stand where a tag ends. -/
theorem attributeAt?_of_endAt? {t rest : Text} (ends : endAt? t = some rest) :
    attributeAt? t = none := by
  rw [Option.eq_none_iff_forall_ne_some]
  rintro ⟨value, after⟩ h
  obtain ⟨blanks, -, blank, -, rfl⟩ := attributeAt?_eq_some_iff.1 h
  rw [endAt?, List.append_assoc, List.append_assoc, trimStart_append blank] at ends
  cases ends

theorem diffAt?_eq_some_iff {tag t rest : Text} {branch : Option Text} :
    diffAt? tag t = some (branch, rest) ↔
      ∃ written blanks, BranchAttribute written branch ∧ Blank blanks ∧
        t = ['<'] ++ tag ++ written ++ blanks ++ ['/', '>'] ++ rest := by
  simp only [diffAt?, Option.bind_eq_bind, Option.bind_eq_some_iff, isPrefixOf?_eq_some_iff]
  constructor
  · rintro ⟨inside, rfl, h⟩
    split at h
    · rename_i value after named
      simp only [Option.bind_eq_some_iff, Option.pure_def, Option.some.injEq, Prod.mk.injEq] at h
      obtain ⟨_, ends, rfl, rfl⟩ := h
      obtain ⟨front, apart, blank, quoted, rfl⟩ := attributeAt?_eq_some_iff.1 named
      obtain ⟨blanks, blank', rfl⟩ := endAt?_eq_some_iff.1 ends
      exact ⟨_, blanks, .present apart blank quoted, blank', by simp⟩
    · simp only [Option.bind_eq_some_iff, Option.pure_def, Option.some.injEq, Prod.mk.injEq] at h
      obtain ⟨_, ends, rfl, rfl⟩ := h
      obtain ⟨blanks, blank, rfl⟩ := endAt?_eq_some_iff.1 ends
      exact ⟨_, blanks, .absent, blank, by simp⟩
  · rintro ⟨written, blanks, named, blank, rfl⟩
    refine ⟨written ++ blanks ++ ['/', '>'] ++ rest, by simp, ?_⟩
    have ends : endAt? (blanks ++ ['/', '>'] ++ rest) = some rest :=
      endAt?_eq_some_iff.2 ⟨blanks, blank, rfl⟩
    cases named with
    | absent =>
        rw [List.nil_append, attributeAt?_of_endAt? ends]
        simp only [ends, Option.bind_some, Option.pure_def]
    | @present front value apart blank' quoted =>
        have found : attributeAt? (front ++ "branch=\"".toList ++ value ++ ['\x22'] ++ blanks ++
            ['/', '>'] ++ rest) = some (value, blanks ++ ['/', '>'] ++ rest) :=
          attributeAt?_eq_some_iff.2 ⟨front, apart, blank', quoted, by simp⟩
        rw [found]
        simp only [ends, Option.bind_some, Option.pure_def]

/-! ## One spelling at a place -/

/-- The spelling that can be read at the start of a text: the name characters behind the first
character. -/
def spelling (t : Text) : Text := t.tail.takeWhile Spellings.isNameChar

theorem spelling_append {tag u : Text} {c : Char} (name : Spellings.isName tag = true)
    (other : Spellings.isNameChar c = false) : spelling ('<' :: (tag ++ c :: u)) = tag := by
  rw [spelling, List.tail_cons,
    List.takeWhile_append_of_pos fun c inside => Spellings.isNameChar_of_mem name inside,
    List.takeWhile_cons_of_neg (by simp [other]), List.append_nil]

theorem spelling_of_block {tag t inner rest : Text} (name : Spellings.isName tag = true)
    (block : Block tag t inner rest) : spelling t = tag := by
  rw [block.text]
  simpa [openTag] using spelling_append (u := inner ++ closeTag tag ++ rest) name
    (by decide : Spellings.isNameChar '>' = false)

/-- Name characters lie between `-` and `z`. -/
theorem isNameChar_range {c : Char} (letter : Spellings.isNameChar c = true) :
    45 ≤ c.toNat ∧ c.toNat ≤ 122 := by
  simp only [Spellings.isNameChar, Bool.or_eq_true, beq_iff_eq] at letter
  rcases letter with (((plain | rfl) | rfl) | rfl) | rfl
  · have plain : (decide ('A'.val ≤ c.val ∧ c.val ≤ 'Z'.val) ||
        (decide ('a'.val ≤ c.val) && decide (c.val ≤ 'z'.val)) ||
        (decide ('0'.val ≤ c.val) && decide (c.val ≤ '9'.val))) = true := plain
    simp only [Bool.or_eq_true, Bool.and_eq_true, decide_eq_true_eq,
      UInt32.le_iff_toNat_le] at plain
    change ((65 ≤ c.toNat ∧ c.toNat ≤ 90) ∨ (97 ≤ c.toNat ∧ c.toNat ≤ 122)) ∨
      (48 ≤ c.toNat ∧ c.toNat ≤ 57) at plain
    omega
  all_goals decide

/-- No name character is blank. -/
theorem not_isNameChar_of_isBlank {c : Char} (blank : isBlank c = true) :
    Spellings.isNameChar c = false := by
  rw [Bool.eq_false_iff]
  intro letter
  have range := isNameChar_range letter
  simp only [isBlank, Bool.or_eq_true, Bool.and_eq_true, decide_eq_true_eq, beq_iff_eq] at blank
  omega

theorem spelling_of_diff {tag t written blanks rest : Text} {branch : Option Text}
    (name : Spellings.isName tag = true) (named : BranchAttribute written branch)
    (blank : Blank blanks) (text : t = ['<'] ++ tag ++ written ++ blanks ++ ['/', '>'] ++ rest) :
    spelling t = tag := by
  obtain ⟨c, u, behind, other⟩ : ∃ c u, written ++ blanks ++ ['/', '>'] ++ rest = c :: u ∧
      Spellings.isNameChar c = false := by
    cases named with
    | absent =>
        cases blanks with
        | nil => exact ⟨'/', '>' :: rest, rfl, by decide⟩
        | cons c cs => exact ⟨c, _, rfl, not_isNameChar_of_isBlank (blank_cons.1 blank).1⟩
    | @present front value apart blank' quoted =>
        cases front with
        | nil => exact absurd rfl apart
        | cons c cs => exact ⟨c, _, rfl, not_isNameChar_of_isBlank (blank_cons.1 blank').1⟩
  rw [text]
  simpa [behind.symm] using spelling_append (u := u) name other

end Directive

/-- A search that succeeds at one text only is a look at that text. -/
theorem findSome?_of_only {β : Type} {l : List Text} {f : Text → Option β} {key : Text}
    (only : ∀ a ∈ l, ∀ b, f a = some b → a = key) :
    l.findSome? f = if key ∈ l then f key else none := by
  induction l with
  | nil => rfl
  | cons a l ih =>
      have later := ih fun x inside => only x (List.mem_cons_of_mem _ inside)
      rw [List.findSome?_cons, later]
      cases found : f a with
      | some b =>
          cases only a List.mem_cons_self b found
          simp [found]
      | none =>
          by_cases same : key = a
          · subst same
            simp [found]
          · simp [same]

namespace TagSet

open Directive

variable {tags : TagSet} {t : Text}

/-- Only the spelling at the place is looked up. -/
theorem directiveAt?_eq (tags : TagSet) (t : Text) :
    tags.directiveAt? t =
      (if spelling t ∈ tags.context then contextAt? t (spelling t) else none).or
        ((if spelling t ∈ tags.note then noteAt? t (spelling t) else none).or
          (if spelling t ∈ tags.diff then diffTagAt? t (spelling t) else none)) := by
  have context : ∀ tag ∈ tags.context, ∀ d, contextAt? t tag = some d → tag = spelling t := by
    intro tag known d found
    simp only [contextAt?, Option.map_eq_some_iff, Prod.exists, blockAt?_eq_some_iff] at found
    obtain ⟨inner, rest, block, -⟩ := found
    exact (spelling_of_block (isName_of_mem_context known) block).symm
  have note : ∀ tag ∈ tags.note, ∀ d, noteAt? t tag = some d → tag = spelling t := by
    intro tag known d found
    simp only [noteAt?, Option.map_eq_some_iff, Prod.exists, blockAt?_eq_some_iff] at found
    obtain ⟨inner, rest, block, -⟩ := found
    exact (spelling_of_block (isName_of_mem_note known) block).symm
  have diff : ∀ tag ∈ tags.diff, ∀ d, diffTagAt? t tag = some d → tag = spelling t := by
    intro tag known d found
    simp only [diffTagAt?, Option.map_eq_some_iff, Prod.exists, diffAt?_eq_some_iff] at found
    obtain ⟨branch, rest, ⟨written, blanks, named, blank, text⟩, -⟩ := found
    exact (spelling_of_diff (isName_of_mem_diff known) named blank text).symm
  rw [directiveAt?, findSome?_of_only context, findSome?_of_only note, findSome?_of_only diff]

/-- The reader finds a directive exactly where the text begins with one. -/
theorem directiveAt?_eq_some_iff {d : Directive} :
    tags.directiveAt? t = some d ↔ tags.Begins t d := by
  constructor
  · intro h
    simp only [directiveAt?_eq, Option.or_eq_some_iff, Option.ite_none_right_eq_some] at h
    rcases h with ⟨known, found⟩ | ⟨-, ⟨known, found⟩ | ⟨-, known, found⟩⟩
    · simp only [contextAt?, Option.map_eq_some_iff, Prod.exists, blockAt?_eq_some_iff] at found
      obtain ⟨inner, rest, block, rfl⟩ := found
      rw [parsePaths_eq]
      exact .context known block
    · simp only [noteAt?, Option.map_eq_some_iff, Prod.exists, blockAt?_eq_some_iff] at found
      obtain ⟨inner, rest, block, rfl⟩ := found
      exact .note known block
    · simp only [diffTagAt?, Option.map_eq_some_iff, Prod.exists, diffAt?_eq_some_iff] at found
      obtain ⟨branch, rest, ⟨written, blanks, named, blank, text⟩, rfl⟩ := found
      exact .diff known named blank text
  · intro h
    rw [directiveAt?_eq]
    cases h with
    | context known block =>
        rw [spelling_of_block (isName_of_mem_context known) block, if_pos known, contextAt?,
          blockAt?_eq_some_iff.2 block, ← parsePaths_eq]
        rfl
    | note known block =>
        have other : spelling t ∉ tags.context := fun listed =>
          not_mem_note_of_mem_context listed
            (by rwa [spelling_of_block (isName_of_mem_note known) block])
        rw [if_neg other, spelling_of_block (isName_of_mem_note known) block, if_pos known, noteAt?,
          blockAt?_eq_some_iff.2 block, Option.map_some, Option.none_or, Option.some_or]
    | diff known named blank text =>
        have same := spelling_of_diff (isName_of_mem_diff known) named blank text
        have context : spelling t ∉ tags.context := fun listed =>
          not_mem_diff_of_mem_context listed (by rwa [same])
        have note : spelling t ∉ tags.note := fun listed =>
          not_mem_diff_of_mem_note listed (by rwa [same])
        rw [if_neg context, if_neg note, same, if_pos known, diffTagAt?,
          diffAt?_eq_some_iff.2 ⟨_, _, named, blank, text⟩, Option.map_some, Option.none_or,
          Option.none_or]

/-- A text begins with one directive at most. -/
theorem Begins.unique {d d' : Directive} (h : tags.Begins t d) (h' : tags.Begins t d') : d = d' :=
  Option.some.inj ((directiveAt?_eq_some_iff.2 h).symm.trans (directiveAt?_eq_some_iff.2 h'))

/-- What follows a directive has no part in it. -/
theorem Begins.local {source rest tag : Text} {segment : Segment}
    (h : tags.Begins (source ++ rest) ⟨tag, segment, rest⟩) (rest' : Text) :
    tags.Begins (source ++ rest') ⟨tag, segment, rest'⟩ := by
  cases h with
  | context known block =>
      have name := isName_of_mem_context known
      obtain ⟨text, bare⟩ := (block_iff name).1 block
      exact .context known ((block_iff name).2 ⟨by rw [List.append_cancel_right text], bare⟩)
  | note known block =>
      have name := isName_of_mem_note known
      obtain ⟨text, bare⟩ := (block_iff name).1 block
      exact .note known ((block_iff name).2 ⟨by rw [List.append_cancel_right text], bare⟩)
  | diff known named blank text =>
      exact .diff known named blank (by rw [List.append_cancel_right text])

/-- A directive takes up a part of the text. -/
theorem Begins.exists_source {d : Directive} (h : tags.Begins t d) :
    ∃ source, source ≠ [] ∧ t = source ++ d.rest := by
  cases h with
  | context known block => exact ⟨_, by simp [openTag], block.text⟩
  | note known block => exact ⟨_, by simp [openTag], block.text⟩
  | diff known named blank text => exact ⟨_, by simp, text⟩

/-- A directive starts with `<`. -/
theorem Begins.exists_open {d : Directive} (begins : tags.Begins t d) : ∃ u, t = '<' :: u := by
  cases begins with
  | context known block => exact ⟨_, block.text⟩
  | note known block => exact ⟨_, block.text⟩
  | diff known named blank text => exact ⟨_, text⟩

theorem not_begins_nil {d : Directive} : ¬ tags.Begins [] d := by
  intro h
  obtain ⟨source, nonempty, whole⟩ := h.exists_source
  exact nonempty (List.append_eq_nil_iff.1 whole.symm).1

/-- What a text begins with stands at its front, whatever follows the text. -/
theorem Begins.append {d : Directive} (h : tags.Begins t d) (more : Text) :
    tags.Begins (t ++ more) ⟨d.tag, d.segment, d.rest ++ more⟩ := by
  obtain ⟨source, -, rfl⟩ := h.exists_source
  rw [List.append_assoc]
  exact h.local _

theorem Begins.isDirective {d : Directive} (h : tags.Begins t d) :
    d.segment.isDirective = true := by
  cases h <;> rfl

end TagSet

end PromptDoc
