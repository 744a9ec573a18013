/-
# PromptDoc.Proofs.Segment.Scan — how a document splits

`TagSet.Scans t ps` derives the pieces of a document: a stretch that no directive
starts in (`TagSet.Quiet`), the directive behind it, and the pieces of the rest.
`pieces_eq_iff` says that the scan finds the one list of pieces that can be
derived, so what holds of every document is shown by induction on the derivation:
nothing is lost (`join_pieces`), no piece is empty, a piece has a tag exactly if
it is a directive, and no text stands beside a text.

A piece read on its own is that piece (`IsPiece.pieces_source`): a directive does not
depend on what follows it, and a quiet stretch stays quiet when less follows.
-/
import Mathlib.Data.List.Chain
import PromptDoc.Segment.Scan
import PromptDoc.Proofs.Segment.Grammar

namespace PromptDoc

set_option autoImplicit false

namespace Piece

@[simp] theorem plain_nil : plain [] = [] := rfl

@[simp] theorem plain_cons (c : Char) (cs : Text) :
    plain (c :: cs) = [{ segment := .text (c :: cs), tag := none, source := c :: cs }] := rfl

@[simp] theorem join_nil : join [] = [] := rfl

@[simp] theorem join_cons (p : Piece) (ps : List Piece) : join (p :: ps) = p.source ++ join ps :=
  List.flatMap_cons

@[simp] theorem join_append (ps qs : List Piece) : join (ps ++ qs) = join ps ++ join qs :=
  List.flatMap_append

@[simp] theorem join_plain (t : Text) : join (plain t) = t := by
  cases t <;> simp

end Piece

/-- No directive starts inside `front` when `rest` follows it. -/
def TagSet.Quiet (tags : TagSet) (front rest : Text) : Prop :=
  ∀ back, back <:+ front → back ≠ [] → ∀ d, ¬ tags.Begins (back ++ rest) d

/-- The pieces of a document, derived from left to right. -/
inductive TagSet.Scans (tags : TagSet) : Text → List Piece → Prop
  | plain {t : Text} (quiet : tags.Quiet t []) : tags.Scans t (Piece.plain t)
  | directive {before source rest tag : Text} {segment : Segment} {ps : List Piece}
      (quiet : tags.Quiet before (source ++ rest))
      (begins : tags.Begins (source ++ rest) ⟨tag, segment, rest⟩)
      (more : tags.Scans rest ps) :
      tags.Scans (before ++ (source ++ rest))
        (Piece.plain before ++ { segment, tag := some tag, source } :: ps)

namespace TagSet

variable {tags : TagSet} {t : Text}

/-! ## Quiet stretches -/

theorem quiet_nil (rest : Text) : tags.Quiet [] rest := fun _ suffix nonempty =>
  absurd (List.suffix_nil.1 suffix) nonempty

theorem quiet_cons {c : Char} {front rest : Text} :
    tags.Quiet (c :: front) rest ↔
      (∀ d, ¬ tags.Begins (c :: front ++ rest) d) ∧ tags.Quiet front rest := by
  constructor
  · intro quiet
    exact ⟨quiet _ List.suffix_rfl (List.cons_ne_nil _ _),
      fun back suffix => quiet back (suffix.trans (List.suffix_cons _ _))⟩
  · rintro ⟨here, later⟩ back suffix nonempty
    rcases List.suffix_cons_iff.1 suffix with rfl | suffix
    · exact here
    · exact later back suffix nonempty

/-- A stretch stays quiet when a part of what follows it is taken away. -/
theorem Quiet.of_append_append {front rest more : Text}
    (quiet : tags.Quiet front (rest ++ more)) : tags.Quiet front rest := by
  intro back suffix nonempty d begins
  have longer := begins.append more
  rw [List.append_assoc] at longer
  exact quiet back suffix nonempty _ longer

theorem Quiet.of_append {front rest : Text} (quiet : tags.Quiet front rest) :
    tags.Quiet front [] :=
  Quiet.of_append_append (show tags.Quiet front ([] ++ rest) from quiet)

/-! ## The next directive -/

theorem nextDirective?_eq_none_iff : tags.nextDirective? t = none ↔ tags.Quiet t [] := by
  induction t with
  | nil => simp only [nextDirective?, quiet_nil]
  | cons c cs ih =>
      rw [nextDirective?, quiet_cons, List.append_nil, ← ih]
      cases found : tags.directiveAt? (c :: cs) with
      | some d => simp [← directiveAt?_eq_some_iff, found]
      | none => simp [← directiveAt?_eq_some_iff, found]

theorem nextDirective?_eq_some_iff {before : Text} {d : Directive} :
    tags.nextDirective? t = some (before, d) ↔
      ∃ u, t = before ++ u ∧ tags.Begins u d ∧ tags.Quiet before u := by
  induction t generalizing before with
  | nil =>
      simp only [nextDirective?, reduceCtorEq, false_iff, not_exists, not_and]
      intro u whole begins
      rw [(List.append_eq_nil_iff.1 whole.symm).2] at begins
      exact absurd begins not_begins_nil
  | cons c cs ih =>
      rw [nextDirective?]
      cases found : tags.directiveAt? (c :: cs) with
      | some here =>
          have begins := directiveAt?_eq_some_iff.1 found
          simp only [Option.some.injEq, Prod.mk.injEq]
          constructor
          · rintro ⟨rfl, rfl⟩
            exact ⟨c :: cs, rfl, begins, quiet_nil _⟩
          · rintro ⟨u, whole, later, quiet⟩
            cases before with
            | nil =>
                rw [List.nil_append] at whole
                exact ⟨rfl, begins.unique (whole ▸ later)⟩
            | cons b bs =>
                exact absurd (whole ▸ begins) (quiet _ List.suffix_rfl (List.cons_ne_nil _ _) here)
      | none =>
          simp only [Option.map_eq_some_iff, Prod.mk.injEq, Prod.exists]
          constructor
          · rintro ⟨front, d, next, rfl, rfl⟩
            obtain ⟨u, rfl, begins, quiet⟩ := ih.1 next
            refine ⟨u, rfl, begins, quiet_cons.2 ⟨fun d' begins' => ?_, quiet⟩⟩
            rw [List.cons_append, ← directiveAt?_eq_some_iff, found] at begins'
            cases begins'
          · rintro ⟨u, whole, begins, quiet⟩
            cases before with
            | nil =>
                rw [List.nil_append] at whole
                rw [← whole, ← directiveAt?_eq_some_iff, found] at begins
                cases begins
            | cons b bs =>
                obtain ⟨rfl, rfl⟩ := List.cons.inj whole
                exact ⟨bs, d, ih.2 ⟨u, rfl, begins, (quiet_cons.1 quiet).2⟩, rfl, rfl⟩

/-! ## The derivation -/

theorem piece_append (source rest tag : Text) (segment : Segment) :
    (Directive.mk tag segment rest).piece (source ++ rest) =
      { segment, tag := some tag, source } := by
  simp [Directive.piece]

/-- The scan derives its pieces. -/
theorem scans_pieces (tags : TagSet) (t : Text) : tags.Scans t (tags.pieces t) := by
  obtain ⟨n, size⟩ : ∃ n, t.length = n := ⟨_, rfl⟩
  induction n using Nat.strong_induction_on generalizing t with
  | _ n ih =>
      rw [pieces]
      split
      · rename_i none_
        exact .plain (nextDirective?_eq_none_iff.1 none_)
      · rename_i before d next
        have shorter := length_of_nextDirective? next
        obtain ⟨u, rfl, begins, quiet⟩ := nextDirective?_eq_some_iff.1 next
        obtain ⟨source, -, rfl⟩ := begins.exists_source
        rw [List.drop_left, piece_append]
        exact .directive quiet begins (ih _ (by omega) d.rest rfl)

/-- What can be derived is what the scan finds. -/
theorem pieces_of_scans {ps : List Piece} (scans : tags.Scans t ps) : tags.pieces t = ps := by
  induction scans with
  | plain quiet =>
      rw [pieces]
      split
      · rfl
      · rename_i next
        rw [nextDirective?_eq_none_iff.2 quiet] at next
        cases next
  | @directive before source rest tag segment ps quiet begins more ih =>
      have found := nextDirective?_eq_some_iff.2 ⟨_, rfl, begins, quiet⟩
      rw [pieces]
      split
      · rename_i none_
        rw [found] at none_
        cases none_
      · rename_i next
        rw [found] at next
        cases next
        rw [List.drop_left, piece_append, ih]

theorem pieces_eq_iff {ps : List Piece} : tags.pieces t = ps ↔ tags.Scans t ps :=
  ⟨fun same => same ▸ scans_pieces tags t, pieces_of_scans⟩

/-! ## What holds of the pieces -/

theorem Scans.join {ps : List Piece} (scans : tags.Scans t ps) : Piece.join ps = t := by
  induction scans with
  | plain quiet => exact Piece.join_plain _
  | directive quiet begins more ih => simp only [Piece.join_append, Piece.join_cons,
      Piece.join_plain, ih]

/-- The pieces of a document are the document. -/
theorem join_pieces (tags : TagSet) (t : Text) : Piece.join (tags.pieces t) = t :=
  (scans_pieces tags t).join

/-- A piece of a document: plain text without a tag, or a directive with its tag. -/
inductive IsPiece (tags : TagSet) : Piece → Prop
  | text {content : Text} (nonempty : content ≠ []) (quiet : tags.Quiet content []) :
      tags.IsPiece { segment := .text content, tag := none, source := content }
  | directive {source tag : Text} {segment : Segment}
      (begins : tags.Begins source ⟨tag, segment, []⟩) :
      tags.IsPiece { segment, tag := some tag, source }

theorem isPiece_of_mem_plain {before : Text} {p : Piece} (quiet : tags.Quiet before [])
    (inside : p ∈ Piece.plain before) : tags.IsPiece p := by
  cases before with
  | nil => cases inside
  | cons c cs =>
      rw [Piece.plain_cons, List.mem_singleton] at inside
      subst inside
      exact .text (List.cons_ne_nil _ _) quiet

theorem Scans.isPiece {ps : List Piece} (scans : tags.Scans t ps) : ∀ p ∈ ps, tags.IsPiece p := by
  induction scans with
  | plain quiet => exact fun p => isPiece_of_mem_plain quiet
  | directive quiet begins more ih =>
      intro p inside
      rcases List.mem_append.1 inside with front | inside
      · exact isPiece_of_mem_plain quiet.of_append front
      · rcases List.mem_cons.1 inside with rfl | later
        · exact .directive (by simpa using begins.local [])
        · exact ih p later

theorem isPiece_of_mem {p : Piece} (inside : p ∈ tags.pieces t) : tags.IsPiece p :=
  (scans_pieces tags t).isPiece p inside

theorem IsPiece.source_ne_nil {p : Piece} (h : tags.IsPiece p) : p.source ≠ [] := by
  cases h with
  | text nonempty => exact nonempty
  | directive begins =>
      obtain ⟨source, nonempty, whole⟩ := begins.exists_source
      simpa [whole] using nonempty

theorem IsPiece.tag_eq_none_iff {p : Piece} (h : tags.IsPiece p) :
    p.tag = none ↔ p.segment.isDirective = false := by
  cases h with
  | text => simp [Segment.isDirective]
  | directive begins => simp [begins.isDirective]

theorem IsPiece.content_eq {p : Piece} (h : tags.IsPiece p) {content : Text}
    (text : p.segment = .text content) : content = p.source := by
  cases h with
  | text => exact (Segment.text.inj text).symm
  | @directive source tag segment begins =>
      have directive : segment.isDirective = true := begins.isDirective
      rw [show segment = .text content from text] at directive
      cases directive

/-- A context segment is a block of a context spelling, and lists its lines. -/
theorem IsPiece.exists_inner {p : Piece} {listed : List Text} (h : tags.IsPiece p)
    (context : p.segment = .context listed) :
    ∃ tag inner, tag ∈ tags.context ∧ ¬ closeTag tag <:+: inner ∧
      p = { segment := .context (pathLines inner), tag := some tag
            source := openTag tag ++ inner ++ closeTag tag } := by
  cases h with
  | text => cases context
  | @directive source tag segment begins =>
      cases begins with
      | @context tag inner rest known block =>
          obtain ⟨text, bare⟩ := (block_iff (isName_of_mem_context known)).1 block
          exact ⟨tag, inner, known, bare, by rw [text, List.append_nil]⟩
      | note known block => cases context
      | diff known named blank text => cases context

theorem IsPiece.isPathLine {p : Piece} {listed : List Text} {path : Text} (h : tags.IsPiece p)
    (context : p.segment = .context listed) (inside : path ∈ listed) : IsPathLine path := by
  obtain ⟨tag, inner, -, -, rfl⟩ := h.exists_inner context
  rw [← Segment.context.inj context] at inside
  exact isPathLine_of_mem inside

/-- No text stands beside a text. -/
theorem Scans.apart {ps : List Piece} (scans : tags.Scans t ps) :
    ps.IsChain fun a b => a.tag ≠ none ∨ b.tag ≠ none := by
  induction scans with
  | @plain t quiet =>
      cases t with
      | nil => exact .nil
      | cons c cs => exact .singleton _
  | @directive before source rest tag segment ps quiet begins more ih =>
      have behind : ({ segment, tag := some tag, source } :: ps : List Piece).IsChain
          fun a b => a.tag ≠ none ∨ b.tag ≠ none :=
        List.isChain_cons.2 ⟨fun y _ => Or.inl (by simp), ih⟩
      cases before with
      | nil => exact behind
      | cons c cs =>
          refine List.isChain_cons.2 ⟨fun y first => Or.inr ?_, behind⟩
          cases Option.mem_some_iff.1 first
          simp

/-- A piece on its own is read as that piece. -/
theorem IsPiece.pieces_source {p : Piece} (h : tags.IsPiece p) : tags.pieces p.source = [p] := by
  rw [pieces_eq_iff]
  cases h with
  | @text content nonempty quiet =>
      cases content with
      | nil => exact absurd rfl nonempty
      | cons c cs => exact .plain quiet
  | directive begins =>
      simpa [Piece.plain] using
        Scans.directive (quiet_nil _) (by simpa using begins) (.plain (quiet_nil _))

theorem pieces_nil (tags : TagSet) : tags.pieces [] = [] :=
  pieces_of_scans (.plain (quiet_nil _))

theorem pieces_eq_nil_iff : tags.pieces t = [] ↔ t = [] := by
  constructor
  · intro empty
    rw [← join_pieces tags t, empty]
    rfl
  · rintro rfl
    exact pieces_nil tags

end TagSet

end PromptDoc
