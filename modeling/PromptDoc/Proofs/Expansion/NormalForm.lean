/-
# PromptDoc.Proofs.Expansion.NormalForm — the normal form of a prompt

A prompt is `Format.Normal`: it has no blank at its ends and no three line feeds in a row.
These are the texts that neither trimming nor shortening changes (`Format.normal_iff`).

The form does not hang on what is answered, so it is shown for answers that need not agree
(`Segment.MayExpand`): the parts are tight in any case (`Segment.MayResolve.tight`), and tight
parts joined give a normal text (`Format.normal_joinParts`).
-/
import PromptDoc.Proofs.Expansion.Composition

namespace PromptDoc

set_option autoImplicit false

open Text

namespace Format

/-! ## Normal texts -/

/-- A text without a blank at its ends and without three line feeds in a row. -/
structure Normal (t : Text) : Prop where
  tight : Tight t
  spaced : ¬ "\n\n\n".toList <:+: t

/-- Trimming and shortening leave the normal texts as they are, and no others. -/
theorem normal_iff {t : Text} : Normal t ↔ Text.trim t = t ∧ collapse t = t :=
  ⟨fun normal => ⟨trim_of_tight normal.tight, collapse_eq_self_iff.2 normal.spaced⟩,
    fun same => ⟨tight_of_trim same.1, collapse_eq_self_iff.1 same.2⟩⟩

theorem normal_collapse {t : Text} (tight : Tight t) : Normal (collapse t) :=
  ⟨tight_collapse tight, not_infix_collapse t⟩

/-- A normal text that is not empty begins and ends with characters that are no blanks. -/
theorem Normal.eq_nil_or {t : Text} (normal : Normal t) :
    t = [] ∨ ∃ first last, t.head? = some first ∧ t.getLast? = some last ∧
      isBlank first = false ∧ isBlank last = false := by
  cases t with
  | nil => exact Or.inl rfl
  | cons c cs =>
      have last : (c :: cs).getLast? = some ((c :: cs).getLast (List.cons_ne_nil c cs)) :=
        List.getLast?_eq_some_getLast (List.cons_ne_nil c cs)
      exact Or.inr ⟨c, _, rfl, last, normal.tight.head c rfl, normal.tight.last _ last⟩

/-- Tight parts are joined to a normal text, whatever stands in them and however many of them
are empty. -/
theorem normal_joinParts {parts : List Text} (tight : ∀ part ∈ parts, Tight part) :
    Normal (joinParts parts) := by
  refine normal_collapse (Tight.intercalate (fun part inside => ?_) fun part inside => ?_)
  · exact tight part (List.mem_of_mem_filter inside)
  · simpa using List.of_mem_filter inside

end Format

/-! ## Prompts -/

/-- A text that a sequence of segments may expand to. -/
inductive Segment.MayExpand (segments : List Segment) : Text → Prop
  | join {texts : List Text} (resolved : List.Forall₂ Segment.MayResolve segments texts) :
      MayExpand segments (Format.joinParts texts)

namespace Surroundings

variable (s : Surroundings)

theorem mayExpand (segments : List Segment) :
    Segment.MayExpand segments (s.expand segments).text := by
  refine .join ?_
  rw [List.map_map, List.forall₂_map_right_iff, List.forall₂_same]
  exact fun segment _ => s.mayResolve segment

end Surroundings

/-- The parts of a document are tight, whatever was answered. -/
theorem tight_of_forall₂_mayResolve {tags : TagSet} {pieces : List Piece} {texts : List Text}
    (read : ∀ p ∈ pieces, tags.IsPiece p)
    (resolved : List.Forall₂ Segment.MayResolve (pieces.map Piece.segment) texts) :
    ∀ text ∈ texts, Tight text := by
  rw [List.forall₂_map_left_iff] at resolved
  induction resolved with
  | nil => exact fun text inside => absurd inside List.not_mem_nil
  | @cons p text pieces texts first later ih =>
      refine List.forall_mem_cons.2 ⟨first.tight (read p List.mem_cons_self), ?_⟩
      exact ih fun q inside => read q (List.mem_cons_of_mem p inside)

/-- **The prompt of a document is in normal form**, whatever is read, whatever language a path
has, whatever a diff gives and whatever fails, also where the same question is answered in
different ways: it is empty or begins and ends with characters that are no blanks, it has no three
line feeds in a row, and so neither trimming it nor shortening it again changes it. -/
theorem normal_expandText (tags : TagSet) (t : Text) :
    (∀ s : Surroundings, Segment.MayExpand (tags.segments t) (s.expandText tags t).text) ∧
    ∀ prompt, Segment.MayExpand (tags.segments t) prompt →
      (prompt = [] ∨ ∃ first last, prompt.head? = some first ∧ prompt.getLast? = some last ∧
        isBlank first = false ∧ isBlank last = false) ∧
      ¬ "\n\n\n".toList <:+: prompt ∧
      Text.trim prompt = prompt ∧ Format.collapse prompt = prompt := by
  refine ⟨fun s => s.mayExpand (tags.segments t), ?_⟩
  rintro prompt ⟨resolved⟩
  have read : ∀ p ∈ tags.pieces t, tags.IsPiece p := fun p => TagSet.isPiece_of_mem
  have normal := Format.normal_joinParts (tight_of_forall₂_mayResolve read resolved)
  exact ⟨normal.eq_nil_or, normal.spaced, Format.normal_iff.1 normal⟩

end PromptDoc
