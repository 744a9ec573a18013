/-
# PromptDoc.Proofs.Document.Replace — one directive written anew

Writing a directive anew can only change the rest of its document by ending
something that is open before it: a block whose closing tag the new text holds, or
a diff tag whose value reaches up to a quote in the new text. `Screens old new after`
says that the new text ends nothing that the old one does not end, and
`pieces_replace` that the pieces before and behind it then stay as they are.

The argument is that a directive which starts before an edge and does not end there
is a block or a value that is open at the edge (`TagSet.Begins.of_append_open`), so it
would start in the old document too (`Screens.exists_begins`), where the old directive
was the first to start.
-/
import PromptDoc.Proofs.Segment.Scan

namespace PromptDoc

set_option autoImplicit false

open Text

/-! ## The ends of a diff tag -/

/-- The text begins with the end of a diff tag, blanks before it. -/
def EndsTag (t : Text) : Prop := ∃ blanks rest, Blank blanks ∧ t = blanks ++ '/' :: '>' :: rest

/-- The text begins with the rest of a value, its quote and the end of a diff tag. -/
def EndsValue (t : Text) : Prop :=
  ∃ value rest, '\x22' ∉ value ∧ EndsTag rest ∧ t = value ++ '\x22' :: rest

theorem EndsTag.append {t : Text} (h : EndsTag t) (more : Text) : EndsTag (t ++ more) := by
  obtain ⟨blanks, rest, blank, rfl⟩ := h
  exact ⟨blanks, rest ++ more, blank, by simp⟩

theorem EndsTag.append_left {blanks t : Text} (blank : Blank blanks) (h : EndsTag t) :
    EndsTag (blanks ++ t) := by
  obtain ⟨blanks', rest, blank', rfl⟩ := h
  exact ⟨blanks ++ blanks', rest, Text.blank_append.2 ⟨blank, blank'⟩, by simp⟩

theorem EndsTag.of_append_left {blanks t : Text} (blank : Blank blanks)
    (h : EndsTag (blanks ++ t)) : EndsTag t := by
  obtain ⟨blanks', rest, blank', whole⟩ := h
  obtain ⟨more, rfl, behind⟩ :=
    front_of_append_eq (c := '/') (blank.not_mem (by decide)) whole
  exact ⟨more, rest, (Text.blank_append.1 blank').2, behind⟩

/-- The end of a tag does not hang over the edge before a character other than `>`. -/
theorem EndsTag.of_append {a b : Text} {c : Char} (other : c ≠ '>') (h : EndsTag (a ++ c :: b)) :
    EndsTag a ∨ Blank a ∧ EndsTag (c :: b) := by
  obtain ⟨blanks, rest, blank, whole⟩ := h
  rcases List.append_eq_append_iff.1 whole with ⟨more, rfl, behind⟩ | ⟨more, rfl, behind⟩
  · obtain ⟨near, far⟩ := Text.blank_append.1 blank
    exact Or.inr ⟨near, more, rest, far, behind⟩
  · cases more with
    | nil =>
        refine Or.inr ⟨by simpa using blank, [], rest, blank_nil, ?_⟩
        simpa using behind.symm
    | cons m ms =>
        obtain ⟨rfl, tail⟩ := List.cons.inj behind
        cases ms with
        | nil => exact absurd (List.cons.inj tail).1.symm other
        | cons n ns =>
            obtain ⟨rfl, -⟩ := List.cons.inj tail
            exact Or.inl ⟨blanks, ns, blank, rfl⟩

/-- No tag ends where another one starts. -/
theorem not_endsTag_open {t : Text} : ¬ EndsTag ('<' :: t) := by
  rintro ⟨blanks, rest, blank, whole⟩
  cases blanks with
  | nil => cases whole
  | cons b bs =>
      obtain ⟨rfl, -⟩ := List.cons.inj whole
      exact absurd (blank_cons.1 blank).1 (by decide)

theorem EndsValue.append {t : Text} (h : EndsValue t) (more : Text) : EndsValue (t ++ more) := by
  obtain ⟨value, rest, quoted, ends, rfl⟩ := h
  exact ⟨value, rest ++ more, quoted, ends.append more, by simp⟩

/-- A value may be longer at its front. -/
theorem EndsValue.append_left {front t : Text} (quoted : '\x22' ∉ front) (h : EndsValue t) :
    EndsValue (front ++ t) := by
  obtain ⟨value, rest, quoted', ends, rfl⟩ := h
  exact ⟨front ++ value, rest, by simp [quoted, quoted'], ends, by simp⟩

theorem EndsValue.of_append_left {front t : Text} (quoted : '\x22' ∉ front)
    (h : EndsValue (front ++ t)) : EndsValue t := by
  obtain ⟨value, rest, quoted', ends, whole⟩ := h
  obtain ⟨more, rfl, rfl⟩ := front_of_append_eq quoted whole
  simp only [List.mem_append, not_or] at quoted'
  exact ⟨more, rest, quoted'.2, ends, rfl⟩

/-- What follows the end of a value has no part in it. -/
theorem EndsValue.of_append_right {a b : Text} (free : '>' ∉ b) (h : EndsValue (a ++ b)) :
    EndsValue a := by
  obtain ⟨value, _, quoted, ⟨blanks, rest, blank, rfl⟩, text⟩ := h
  have whole : a ++ b = (value ++ '\x22' :: (blanks ++ ['/'])) ++ '>' :: rest := by simp [text]
  rcases List.append_eq_append_iff.1 whole with ⟨more, -, rfl⟩ | ⟨more, rfl, behind⟩
  · simp at free
  · cases more with
    | nil =>
        rw [List.nil_append] at behind
        simp [← behind] at free
    | cons m ms =>
        obtain ⟨rfl, -⟩ := List.cons.inj behind
        exact ⟨value, _, quoted, ⟨blanks, ms, blank, rfl⟩, by simp⟩

/-- Where a value ends, seen from the edge before a character other than `>`: in front of the edge,
at a quote in front of it with blanks up to it, or behind it. -/
theorem EndsValue.of_append {a b : Text} {c : Char} (other : c ≠ '>')
    (h : EndsValue (a ++ c :: b)) :
    EndsValue a ∨
      (∃ value blanks, '\x22' ∉ value ∧ a = value ++ '\x22' :: blanks ∧ Blank blanks ∧
        EndsTag (c :: b)) ∨
      '\x22' ∉ a ∧ EndsValue (c :: b) := by
  by_cases quote : '\x22' ∈ a
  · obtain ⟨value, rest, rfl, quoted⟩ := List.eq_append_cons_of_mem quote
    obtain ⟨value', rest', quoted', ends, whole⟩ := h
    rw [List.append_assoc, List.cons_append] at whole
    obtain ⟨more, rfl, behind⟩ := front_of_append_eq quoted whole
    cases more with
    | nil =>
        obtain ⟨-, rfl⟩ := List.cons.inj behind
        rcases ends.of_append other with inside | ⟨blank, ends⟩
        · exact Or.inl ⟨value, rest, quoted, inside, rfl⟩
        · exact Or.inr (Or.inl ⟨value, rest, quoted, rfl, blank, ends⟩)
    | cons m ms =>
        obtain ⟨rfl, -⟩ := List.cons.inj behind
        simp at quoted'
  · exact Or.inr (Or.inr ⟨quote, h.of_append_left quote⟩)

/-! ## What may be open at the edge of a text -/

namespace TagSet

variable {tags : TagSet} {s : Text}

/-- The text begins with a diff tag whose value has not ended. -/
def OpensValue (tags : TagSet) (s : Text) : Prop :=
  ∃ tag ∈ tags.diff, ∃ blanks value, blanks ≠ [] ∧ Blank blanks ∧ '\x22' ∉ value ∧
    s = '<' :: tag ++ (blanks ++ "branch=\"".toList ++ value)

/-- A text that opens a block begins with it if the closing tag follows. -/
theorem exists_begins_of_openTag {tag front : Text}
    (known : tag ∈ tags.context ∨ tag ∈ tags.note) (closed : closeTag tag <:+: front) :
    ∃ d, tags.Begins (openTag tag ++ front) d := by
  obtain ⟨⟨inner, rest⟩, cut⟩ := Option.isSome_iff_exists.1 (cutAt?_isSome_iff.2 closed)
  obtain ⟨text, first⟩ := cutAt?_eq_some_iff.1 cut
  have block : Block tag (openTag tag ++ front) inner rest :=
    ⟨by simp [List.append_assoc, text], first⟩
  rcases known with context | note
  · exact ⟨_, .context context block⟩
  · exact ⟨_, .note note block⟩

/-- A text that opens a value begins with a diff tag as soon as the value ends behind it. -/
theorem OpensValue.exists_begins {t : Text} (opens : tags.OpensValue s) (ends : EndsValue t) :
    ∃ d, tags.Begins (s ++ t) d := by
  obtain ⟨tag, known, blanks, value, apart, blank, quoted, rfl⟩ := opens
  obtain ⟨value', _, quoted', ⟨blanks', rest, blank', rfl⟩, rfl⟩ := ends
  have quoted'' : '\x22' ∉ value ++ value' := by simp [quoted, quoted']
  have text : '<' :: tag ++ (blanks ++ "branch=\"".toList ++ value) ++
      (value' ++ '\x22' :: (blanks' ++ '/' :: '>' :: rest)) =
        ['<'] ++ tag ++ (blanks ++ "branch=\"".toList ++ (value ++ value') ++ ['\x22']) ++ blanks' ++
          ['/', '>'] ++ rest := by simp
  exact ⟨_, .diff known (.present apart blank quoted'') blank' text⟩

/-- A block that starts before an edge ends before it too, or is open at the edge and ends behind. -/
theorem exists_begins_of_block {tag u inner rest : Text}
    (known : tag ∈ tags.context ∨ tag ∈ tags.note) (nonempty : s ≠ [])
    (block : Block tag (s ++ '<' :: u) inner rest) :
    (∃ d, tags.Begins s d) ∨ openTag tag <+: s ∧ closeTag tag <:+: '<' :: u := by
  have name := known.elim isName_of_mem_context isName_of_mem_note
  have whole : openTag tag ++ (inner ++ closeTag tag ++ rest) = s ++ '<' :: u := by
    simpa using block.text.symm
  obtain ⟨front, rfl, behind⟩ :=
    front_of_append_eq_of_tail (open_not_mem_tail_openTag name) nonempty whole
  have stands : closeTag tag <:+: front ++ '<' :: u := ⟨inner, rest, by simp [← behind]⟩
  rcases infix_append_open (open_not_mem_tail_closeTag name) stands with before | after
  · exact Or.inl (exists_begins_of_openTag known before)
  · exact Or.inr ⟨List.prefix_append _ _, after⟩

/-- A diff tag that starts before an edge ends before it too, or its value is open at the edge and
ends behind. -/
theorem exists_begins_of_diff {tag u written blanks rest : Text} {branch : Option Text}
    (known : tag ∈ tags.diff) (nonempty : s ≠ []) (named : BranchAttribute written branch)
    (blank : Blank blanks)
    (text : s ++ '<' :: u = ['<'] ++ tag ++ written ++ blanks ++ ['/', '>'] ++ rest) :
    (∃ d, tags.Begins s d) ∨ tags.OpensValue s ∧ EndsValue ('<' :: u) := by
  have whole : ('<' :: tag) ++ (written ++ (blanks ++ '/' :: '>' :: rest)) = s ++ '<' :: u := by
    simpa using text.symm
  have alone : '<' ∉ ('<' :: tag).tail :=
    Spellings.not_mem_name (isName_of_mem_diff known) (by decide)
  obtain ⟨s', rfl, behind⟩ := front_of_append_eq_of_tail alone nonempty whole
  cases named with
  | absent =>
      have free : '<' ∉ blanks ++ ['/', '>'] := by
        simp [blank.not_mem (by decide : isBlank '<' = false)]
      obtain ⟨more, rfl, -⟩ :=
        front_of_append_eq free (by simpa using behind : (blanks ++ ['/', '>']) ++ rest = _)
      have text' : '<' :: tag ++ (blanks ++ ['/', '>'] ++ more) =
          ['<'] ++ tag ++ [] ++ blanks ++ ['/', '>'] ++ more := by simp
      exact Or.inl ⟨_, .diff known .absent blank text'⟩
  | @present front value apart blank' quoted =>
      have free : '<' ∉ front ++ "branch=\"".toList := by
        simp [blank'.not_mem (by decide : isBlank '<' = false)]
      obtain ⟨s'', rfl, later⟩ := front_of_append_eq free
        (by simpa using behind : (front ++ "branch=\"".toList) ++
          (value ++ '\x22' :: (blanks ++ '/' :: '>' :: rest)) = _)
      have ends : EndsValue (s'' ++ '<' :: u) :=
        ⟨value, _, quoted, ⟨blanks, rest, blank, rfl⟩, later.symm⟩
      rcases ends.of_append (by decide) with inside | ⟨_, _, -, -, -, tag_⟩ | ⟨quoted', behind⟩
      · left
        have opens : tags.OpensValue ('<' :: tag ++ (front ++ "branch=\"".toList)) :=
          ⟨tag, known, front, [], apart, blank', List.not_mem_nil, by simp⟩
        simpa using opens.exists_begins inside
      · exact absurd tag_ not_endsTag_open
      · exact Or.inr ⟨⟨tag, known, front, s'', apart, blank', quoted', rfl⟩, behind⟩

/-- **What an edge leaves open.**  A directive that starts before a `<` and does not end before it is
a block or a value that is open there, and what follows ends it. -/
theorem Begins.of_append_open {u : Text} {d : Directive} (nonempty : s ≠ [])
    (begins : tags.Begins (s ++ '<' :: u) d) :
    (∃ d', tags.Begins s d') ∨
      (∃ tag, (tag ∈ tags.context ∨ tag ∈ tags.note) ∧ openTag tag <+: s ∧
        closeTag tag <:+: '<' :: u) ∨
      tags.OpensValue s ∧ EndsValue ('<' :: u) := by
  cases begins with
  | context known block =>
      exact (exists_begins_of_block (Or.inl known) nonempty block).imp_right fun open_ =>
        Or.inl ⟨_, Or.inl known, open_⟩
  | note known block =>
      exact (exists_begins_of_block (Or.inr known) nonempty block).imp_right fun open_ =>
        Or.inl ⟨_, Or.inr known, open_⟩
  | diff known named blank text =>
      exact (exists_begins_of_diff known nonempty named blank text).imp_right Or.inr

end TagSet

/-! ## What a new text may not end -/

/-- The new text ends nothing that is open before it, unless the old one does. -/
structure Screens (old new after : Text) : Prop where
  opens : ∃ inner, new = '<' :: inner
  closes : ∃ inner, new = inner ++ ['>']
  closers : ∀ tag, Spellings.isName tag = true → closeTag tag <:+: new → closeTag tag <:+: old
  values : EndsValue (new ++ after) → EndsValue (old ++ after)

namespace Screens

variable {tags : TagSet} {old new after s : Text} (screens : Screens old new after)
include screens

/-- A closing tag from the new text on stands from the old one on. -/
theorem closeTag_infix {tag : Text} (name : Spellings.isName tag = true)
    (stands : closeTag tag <:+: new ++ after) : closeTag tag <:+: old ++ after := by
  obtain ⟨m, closes⟩ := screens.closes
  rw [closes] at stands
  rcases infix_append_close (close_not_mem_dropLast_closeTag name) stands with here | behind
  · exact List.infix_append_of_infix_left (screens.closers tag name (closes ▸ here))
  · exact List.infix_append_of_infix_right behind

/-- A directive that starts before the new text starts there before the old one. -/
theorem exists_begins {d : Directive} (nonempty : s ≠ [])
    (begins : tags.Begins (s ++ (new ++ after)) d) :
    ∃ d', tags.Begins (s ++ (old ++ after)) d' := by
  obtain ⟨n, opens⟩ := screens.opens
  have edge : new ++ after = '<' :: (n ++ after) := by rw [opens, List.cons_append]
  rw [edge] at begins
  rcases begins.of_append_open nonempty with
    ⟨d', before⟩ | ⟨tag, known, open_, closed⟩ | ⟨open_, ends⟩
  · exact ⟨_, before.append _⟩
  · obtain ⟨front, rfl⟩ := open_
    have name := known.elim TagSet.isName_of_mem_context TagSet.isName_of_mem_note
    have closed' := screens.closeTag_infix name (edge ▸ closed)
    rw [List.append_assoc]
    exact TagSet.exists_begins_of_openTag known (List.infix_append_of_infix_right closed')
  · exact open_.exists_begins (screens.values (edge ▸ ends))

/-- What is quiet before the old text is quiet before the new one. -/
theorem quiet {before m : Text} (quiet : tags.Quiet before (m ++ (old ++ after))) :
    tags.Quiet before (m ++ (new ++ after)) := by
  intro s suffix nonempty d begins
  obtain ⟨d', begins'⟩ := screens.exists_begins (s := s ++ m) (by simp [nonempty])
    (by simpa using begins)
  exact quiet s suffix nonempty d' (by simpa using begins')

end Screens

/-! ## The pieces around it -/

namespace TagSet

variable {tags : TagSet} {t : Text}

/-- A directive is no piece of plain text. -/
theorem not_mem_plain {before : Text} {p : Piece} (directive : p.tag ≠ none) :
    p ∉ Piece.plain before := by
  intro inside
  cases before with
  | nil => cases inside
  | cons c cs =>
      rw [Piece.plain_cons, List.mem_singleton] at inside
      exact directive (by rw [inside])

/-- Where a directive stands in a list of pieces that starts with plain text: right behind the text,
or behind the piece that follows it. -/
theorem plain_append_cons_eq {before : Text} {p old : Piece} {ps front back : List Piece}
    (directive : old.tag ≠ none) (split : Piece.plain before ++ p :: ps = front ++ old :: back) :
    front = Piece.plain before ∧ p = old ∧ ps = back ∨
      ∃ front', front = Piece.plain before ++ p :: front' ∧ ps = front' ++ old :: back := by
  rcases List.append_eq_append_iff.1 split with ⟨more, rfl, behind⟩ | ⟨more, plain, behind⟩
  · cases more with
    | nil =>
        obtain ⟨rfl, rfl⟩ := List.cons.inj behind
        exact Or.inl ⟨by simp, rfl, rfl⟩
    | cons m ms =>
        obtain ⟨rfl, rfl⟩ := List.cons.inj behind
        exact Or.inr ⟨ms, rfl, rfl⟩
  · cases more with
    | nil =>
        obtain ⟨rfl, rfl⟩ := List.cons.inj behind
        exact Or.inl ⟨by simpa using plain.symm, rfl, rfl⟩
    | cons m ms =>
        obtain ⟨rfl, -⟩ := List.cons.inj behind
        have inside : old ∈ Piece.plain before := by simp [plain]
        exact absurd inside (not_mem_plain directive)

/-- A derivation goes on with another directive in place of the old one. -/
theorem Scans.replace {ps front back : List Piece} {old new : Piece} {tag : Text}
    (scans : tags.Scans t ps) (split : ps = front ++ old :: back) (directive : old.tag ≠ none)
    (begins : tags.Begins new.source ⟨tag, new.segment, []⟩) (tagged : new.tag = some tag)
    (screens : Screens old.source new.source (Piece.join back)) :
    tags.Scans (Piece.join front ++ (new.source ++ Piece.join back)) (front ++ new :: back) := by
  induction scans generalizing front with
  | @plain t quiet =>
      have inside : old ∈ Piece.plain t := by simp [split]
      exact absurd inside (not_mem_plain directive)
  | @directive before source rest tag' segment ps quiet begins' more ih =>
      rcases plain_append_cons_eq directive split with ⟨rfl, rfl, rfl⟩ | ⟨front', rfl, rfl⟩
      · -- The old directive: nothing starts before it, hence nothing before the new one.
        have rest_ := more.join
        subst rest_
        have begins'' := (show tags.Begins (new.source ++ []) _ by simpa using begins).local
          (Piece.join ps)
        have quiet' : tags.Quiet before (new.source ++ Piece.join ps) :=
          screens.quiet (m := []) quiet
        have whole := Scans.directive quiet' begins'' more
        rw [Piece.join_plain]
        simpa [← tagged] using whole
      · -- A directive before it: it does not depend on what follows.
        have later := ih rfl
        have rest_ := more.join
        subst rest_
        have quiet' : tags.Quiet before
            (source ++ (Piece.join front' ++ (new.source ++ Piece.join back))) := by
          have before_ : tags.Quiet before
              ((source ++ Piece.join front') ++ (old.source ++ Piece.join back)) := by
            simpa using quiet
          simpa using screens.quiet before_
        have whole := Scans.directive quiet' (begins'.local _) later
        simpa using whole

/-- **A directive written anew leaves the pieces around it as they are.** -/
theorem pieces_replace {front back : List Piece} {old new : Piece} {tag : Text}
    (split : tags.pieces t = front ++ old :: back) (directive : old.tag ≠ none)
    (begins : tags.Begins new.source ⟨tag, new.segment, []⟩) (tagged : new.tag = some tag)
    (screens : Screens old.source new.source (Piece.join back)) :
    tags.pieces (Piece.join front ++ (new.source ++ Piece.join back)) = front ++ new :: back :=
  pieces_of_scans ((scans_pieces tags t).replace split directive begins tagged screens)

end TagSet

end PromptDoc
