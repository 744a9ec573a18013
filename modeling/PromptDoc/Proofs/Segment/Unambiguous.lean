/-
# PromptDoc.Proofs.Segment.Unambiguous — the order of the spellings does not matter

A directive is looked for by trying one spelling after another (`TagSet.alternatives`).
`Alternative.Reads` are all the ways to read a text as a directive of one spelling: a block
may be closed at any closing tag, a diff tag may have any attribute. An alternative takes the
shortest of its readings (`Alternative.Takes`).

Accepted spellings leave nothing to the order in which they are tried: at any place only one
of them can be read at all, since a tag name ends where the first other character stands
(`spelling`) and no name is listed twice, and what it takes there is determined
(`Unambiguous`). So the same spellings in another order are accepted too, and every document
is read as before (`spans_of_perm`).
-/
import PromptDoc.Proofs.Segment.Partition

namespace PromptDoc

set_option autoImplicit false

open Text Directive

inductive Kind where
  | context
  | note
  | diff
deriving DecidableEq, Repr

/-- The segment that a block of the kind has for its inside; a diff tag is no block. -/
def Kind.ofInner? : Kind → Text → Option Segment
  | .context, inner => some (.context (pathLines inner))
  | .note, inner => some (.note (Text.trim inner))
  | .diff, _ => none

/-- One spelling of one kind of directive. -/
structure Alternative where
  kind : Kind
  tag : Text
deriving DecidableEq, Repr

namespace Alternative

/-- The text can be read as the directive, of which `rest` is what follows it. -/
inductive Reads (a : Alternative) : Text → Directive → Prop
  | block {inner rest : Text} {segment : Segment} (holds : a.kind.ofInner? inner = some segment) :
      Reads a (openTag a.tag ++ inner ++ closeTag a.tag ++ rest) ⟨a.tag, segment, rest⟩
  | tag {written blanks rest : Text} {branch : Option Text} (diff : a.kind = .diff)
      (named : BranchAttribute written branch) (blank : Blank blanks) :
      Reads a (['<'] ++ a.tag ++ written ++ blanks ++ ['/', '>'] ++ rest)
        ⟨a.tag, .diff branch, rest⟩

/-- The reading that an alternative takes: none of its readings is shorter. -/
structure Takes (a : Alternative) (t : Text) (d : Directive) : Prop where
  reads : a.Reads t d
  shortest : ∀ e, a.Reads t e → e.rest.length ≤ d.rest.length

end Alternative

/-- The spellings in the order in which they are tried. -/
def TagSet.alternatives (tags : TagSet) : List Alternative :=
  tags.context.map (Alternative.mk .context) ++ (tags.note.map (Alternative.mk .note) ++
    tags.diff.map (Alternative.mk .diff))

/-- Nothing is left to the order in which the spellings are tried. A place in a document is given by
the text from there on. -/
structure TagSet.Unambiguous (tags : TagSet) : Prop where
  /-- Two alternatives that can be read at one place, however far they reach, are one. -/
  alternative : ∀ (t : Text) (i j : Nat) (a b : Alternative) (d e : Directive),
    tags.alternatives[i]? = some a → tags.alternatives[j]? = some b →
      a.Reads t d → b.Reads t e → i = j
  /-- What an alternative takes at a place is determined, and with it where the directive ends. -/
  ending : ∀ (t : Text), ∀ a ∈ tags.alternatives, ∀ d e, a.Takes t d → a.Takes t e → d = e
  /-- A diff tag can be read in one way only. -/
  single : ∀ (t : Text), ∀ a ∈ tags.alternatives, a.kind = .diff →
    ∀ d e, a.Reads t d → a.Reads t e → d = e
  /-- The scan finds what an alternative takes. -/
  found : ∀ (t : Text) (d : Directive),
    tags.directiveAt? t = some d ↔ ∃ a ∈ tags.alternatives, a.Takes t d

/-! ## The shortest reading -/

/-- A block is the shortest stretch from its opening tag to a closing tag. -/
theorem block_iff_shortest {tag t inner rest : Text} :
    Block tag t inner rest ↔ t = openTag tag ++ inner ++ closeTag tag ++ rest ∧
      ∀ inner' rest', t = openTag tag ++ inner' ++ closeTag tag ++ rest' →
        rest'.length ≤ rest.length := by
  constructor
  · rintro ⟨text, first⟩
    refine ⟨text, fun inner' rest' other => ?_⟩
    by_contra longer
    have same : inner' ++ (closeTag tag ++ rest') = inner ++ (closeTag tag ++ rest) := by
      simpa using other.symm.trans text
    rcases List.append_eq_append_iff.1 same with ⟨back, rfl, behind⟩ | ⟨back, rfl, behind⟩
    · refine first back (List.suffix_append _ _) ?_ ⟨rest', by simpa using behind⟩
      rintro rfl
      have rest_ : rest' = rest := by simpa using behind
      exact longer (Nat.le_of_eq (congrArg List.length rest_))
    · have size := congrArg List.length behind
      simp only [List.length_append] at size
      omega
  · rintro ⟨text, shortest⟩
    refine ⟨text, ?_⟩
    rintro back ⟨front, rfl⟩ nonempty ⟨rest', behind⟩
    have le := shortest front rest' (by simp [text, behind])
    have size := congrArg List.length behind
    have some_ := List.length_pos_iff.2 nonempty
    simp only [List.length_append] at size
    omega

namespace Alternative

variable {a : Alternative} {t : Text} {d e : Directive}

/-- A diff tag is read as the reader of diff tags has it. -/
theorem reads_iff_of_diff (diff : a.kind = .diff) :
    a.Reads t d ↔
      ∃ branch rest, diffAt? a.tag t = some (branch, rest) ∧ d = ⟨a.tag, .diff branch, rest⟩ := by
  constructor
  · rintro (⟨holds⟩ | ⟨-, named, blank⟩)
    · rw [diff] at holds
      cases holds
    · exact ⟨_, _, diffAt?_eq_some_iff.2 ⟨_, _, named, blank, rfl⟩, rfl⟩
  · rintro ⟨branch, rest, found, rfl⟩
    obtain ⟨written, blanks, named, blank, rfl⟩ := diffAt?_eq_some_iff.1 found
    exact .tag diff named blank

theorem Reads.eq_of_diff (diff : a.kind = .diff) (reads : a.Reads t d) (other : a.Reads t e) :
    d = e := by
  obtain ⟨branch, rest, found, rfl⟩ := (reads_iff_of_diff diff).1 reads
  obtain ⟨branch', rest', found', rfl⟩ := (reads_iff_of_diff diff).1 other
  cases found.symm.trans found'
  rfl

/-- What an alternative takes: a block up to the first closing tag, or a diff tag. -/
theorem takes_iff :
    a.Takes t d ↔
      (∃ inner rest segment, a.kind.ofInner? inner = some segment ∧ Block a.tag t inner rest ∧
        d = ⟨a.tag, segment, rest⟩) ∨ a.kind = .diff ∧ a.Reads t d := by
  constructor
  · rintro ⟨reads, shortest⟩
    cases reads with
    | @block inner rest segment holds =>
        refine Or.inl ⟨inner, rest, segment, holds, block_iff_shortest.2 ⟨rfl, ?_⟩, rfl⟩
        intro inner' rest' text
        obtain ⟨segment', holds'⟩ : ∃ segment', a.kind.ofInner? inner' = some segment' := by
          cases kind : a.kind <;> simp [kind, Kind.ofInner?] at holds ⊢
        exact shortest ⟨a.tag, segment', rest'⟩ (text ▸ .block holds')
    | tag diff named blank => exact Or.inr ⟨diff, .tag diff named blank⟩
  · rintro (⟨inner, rest, segment, holds, block, rfl⟩ | ⟨diff, reads⟩)
    · obtain ⟨text, shortest⟩ := block_iff_shortest.1 block
      refine ⟨text ▸ .block holds, ?_⟩
      rintro e (⟨-⟩ | ⟨diff, -, -⟩)
      · exact shortest _ _ rfl
      · rw [diff] at holds
        cases holds
    · exact ⟨reads, fun e other => Nat.le_of_eq (by rw [reads.eq_of_diff diff other])⟩

end Alternative

namespace TagSet

variable {tags : TagSet} {t : Text}

theorem mem_alternatives {a : Alternative} :
    a ∈ tags.alternatives ↔
      a.kind = .context ∧ a.tag ∈ tags.context ∨ a.kind = .note ∧ a.tag ∈ tags.note ∨
        a.kind = .diff ∧ a.tag ∈ tags.diff := by
  obtain ⟨kind, tag⟩ := a
  cases kind <;> simp [alternatives]

/-- A text begins with a directive exactly where an alternative takes it. -/
theorem begins_iff_takes {d : Directive} :
    tags.Begins t d ↔ ∃ a ∈ tags.alternatives, a.Takes t d := by
  constructor
  · intro begins
    cases begins with
    | context known block =>
        exact ⟨⟨.context, _⟩, mem_alternatives.2 (Or.inl ⟨rfl, known⟩),
          Alternative.takes_iff.2 (Or.inl ⟨_, _, _, rfl, block, rfl⟩)⟩
    | note known block =>
        exact ⟨⟨.note, _⟩, mem_alternatives.2 (Or.inr (Or.inl ⟨rfl, known⟩)),
          Alternative.takes_iff.2 (Or.inl ⟨_, _, _, rfl, block, rfl⟩)⟩
    | diff known named blank text =>
        exact ⟨⟨.diff, _⟩, mem_alternatives.2 (Or.inr (Or.inr ⟨rfl, known⟩)),
          Alternative.takes_iff.2 (Or.inr ⟨rfl, text ▸ .tag rfl named blank⟩)⟩
  · rintro ⟨⟨kind, tag⟩, known, takes⟩
    rcases Alternative.takes_iff.1 takes with ⟨inner, rest, segment, holds, block, rfl⟩ | ⟨rfl, reads⟩
    · cases kind with
      | context =>
          cases holds
          exact .context (by simpa [alternatives] using known) block
      | note =>
          cases holds
          exact .note (by simpa [alternatives] using known) block
      | diff => cases holds
    · cases reads with
      | block holds => cases holds
      | tag _ named blank => exact .diff (by simpa [alternatives] using known) named blank rfl

/-! ## One alternative at a place -/

theorem isName_of_mem_alternatives {a : Alternative} (known : a ∈ tags.alternatives) :
    Spellings.isName a.tag = true := by
  rcases mem_alternatives.1 known with ⟨-, listed⟩ | ⟨-, listed⟩ | ⟨-, listed⟩
  · exact isName_of_mem_context listed
  · exact isName_of_mem_note listed
  · exact isName_of_mem_diff listed

/-- An alternative is read only where its spelling stands. -/
theorem spelling_of_reads {a : Alternative} {d : Directive} (known : a ∈ tags.alternatives)
    (reads : a.Reads t d) : spelling t = a.tag := by
  have name := isName_of_mem_alternatives known
  cases reads with
  | @block inner rest segment holds =>
      simpa [openTag] using spelling_append (u := inner ++ closeTag a.tag ++ rest) name
        (by decide : Spellings.isNameChar '>' = false)
  | tag _ named blank => exact spelling_of_diff name named blank rfl

/-- The spellings are tried in another order than that in which they are checked. -/
theorem map_tag_alternatives_perm (tags : TagSet) :
    (tags.alternatives.map Alternative.tag).Perm tags.all := by
  have tried : tags.alternatives.map Alternative.tag = tags.context ++ (tags.note ++ tags.diff) := by
    simp [alternatives, Function.comp_def]
  rw [tried, Spellings.all, List.append_assoc]
  exact List.perm_append_comm.append_left _

theorem unambiguous (tags : TagSet) : tags.Unambiguous where
  alternative t i j a b d e atI atJ reads other := by
    have nodup : (tags.alternatives.map Alternative.tag).Nodup :=
      (map_tag_alternatives_perm tags).nodup_iff.2 tags.accepted.nodup
    have same : a.tag = b.tag :=
      (spelling_of_reads (List.mem_of_getElem? atI) reads).symm.trans
        (spelling_of_reads (List.mem_of_getElem? atJ) other)
    have inside : i < (tags.alternatives.map Alternative.tag).length := by
      rw [List.length_map]
      exact (List.getElem?_eq_some_iff.1 atI).1
    refine (List.getElem?_inj inside nodup).1 ?_
    rw [List.getElem?_map, List.getElem?_map, atI, atJ, Option.map_some, Option.map_some, same]
  ending t a known d e takes other :=
    (begins_iff_takes.2 ⟨a, known, takes⟩).unique (begins_iff_takes.2 ⟨a, known, other⟩)
  single t a known diff d e reads other := reads.eq_of_diff diff other
  found t d := directiveAt?_eq_some_iff.trans begins_iff_takes

end TagSet

/-! ## The same spellings in another order -/

namespace Spellings

/-- The spellings of each kind are those of another tag set, in another order. -/
structure Perm (s other : Spellings) : Prop where
  context : s.context.Perm other.context
  diff : s.diff.Perm other.diff
  note : s.note.Perm other.note

theorem firstDefect_eq_none_iff {seen tags : List Text} :
    firstDefect seen tags = none ↔
      (∀ tag ∈ tags, isName tag = true) ∧ (∀ tag ∈ tags, tag ∉ seen) ∧ tags.Nodup := by
  refine ⟨firstDefect_eq_none, ?_⟩
  induction tags generalizing seen with
  | nil => exact fun _ => rfl
  | cons tag tags ih =>
      rintro ⟨names, apart, nodup⟩
      obtain ⟨fresh, nodup⟩ := List.nodup_cons.1 nodup
      have name := names tag List.mem_cons_self
      have new := apart tag List.mem_cons_self
      rw [firstDefect, if_neg (by simp [name]), if_neg new]
      refine ih ⟨fun u inside => names u (List.mem_cons_of_mem _ inside), ?_, nodup⟩
      intro u inside held
      rcases List.mem_cons.1 held with rfl | held
      · exact fresh inside
      · exact apart u (List.mem_cons_of_mem _ inside) held

/-- Spellings that can stand together have no defect. -/
theorem defect?_eq_none_iff {s : Spellings} : s.defect? = none ↔ s.Accepted := by
  refine ⟨accepted_of_defect?_eq_none, fun ⟨nonempty, names, nodup⟩ => ?_⟩
  rw [defect?, if_neg nonempty]
  exact firstDefect_eq_none_iff.2 ⟨names, fun _ _ => List.not_mem_nil, nodup⟩

theorem Perm.all {s other : Spellings} (perm : s.Perm other) : s.all.Perm other.all :=
  (perm.context.append perm.diff).append perm.note

/-- Whether spellings can stand together does not depend on their order. -/
theorem Perm.accepted {s other : Spellings} (perm : s.Perm other) (accepted : other.Accepted) :
    s.Accepted where
  nonempty none_ := accepted.nonempty (by simpa [none_] using perm.all)
  names tag inside := accepted.names tag (perm.all.mem_iff.1 inside)
  nodup := perm.all.nodup_iff.2 accepted.nodup

end Spellings

namespace TagSet

variable {tags other : TagSet} {t : Text}

theorem ofSpellings_of_accepted {s : Spellings} (accepted : s.Accepted) :
    ofSpellings s = .ok ⟨s, accepted⟩ := by
  unfold ofSpellings
  split
  · rename_i defect found
    rw [Spellings.defect?_eq_none_iff.2 accepted] at found
    cases found
  · rfl

theorem alternatives_perm (perm : other.toSpellings.Perm tags.toSpellings) :
    other.alternatives.Perm tags.alternatives :=
  (perm.context.map _).append ((perm.note.map _).append (perm.diff.map _))

/-- A document is read by the directives that there are, whatever finds them. -/
theorem Scans.congr {ps : List Piece} (same : ∀ t d, other.Begins t d ↔ tags.Begins t d)
    (scans : tags.Scans t ps) : other.Scans t ps := by
  have still : ∀ {front rest : Text}, tags.Quiet front rest → other.Quiet front rest :=
    fun quiet back suffix nonempty d begins =>
      quiet back suffix nonempty d ((same _ _).1 begins)
  induction scans with
  | plain quiet => exact .plain (still quiet)
  | directive quiet begins more ih => exact .directive (still quiet) ((same _ _).2 begins) ih

theorem spans_eq_of_perm (perm : other.toSpellings.Perm tags.toSpellings) (t : Text) :
    other.spans t = tags.spans t := by
  have same : ∀ t d, other.Begins t d ↔ tags.Begins t d := by
    intro t d
    simp only [begins_iff_takes, (alternatives_perm perm).mem_iff]
  rw [spans, pieces_of_scans ((scans_pieces tags t).congr same), spans]

/-- **Accepted spellings are unambiguous.**  In another order they are accepted too, and every
document has the same spans. -/
theorem spans_of_perm (tags : TagSet) :
    tags.Unambiguous ∧ ∀ s : Spellings, s.Perm tags.toSpellings →
      ∃ other : TagSet, ofSpellings s = .ok other ∧ other.toSpellings = s ∧
        ∀ t, other.spans t = tags.spans t := by
  refine ⟨unambiguous tags, fun s perm => ?_⟩
  have accepted := perm.accepted tags.accepted
  exact ⟨⟨s, accepted⟩, ofSpellings_of_accepted accepted, rfl, spans_eq_of_perm perm⟩

end TagSet

end PromptDoc
