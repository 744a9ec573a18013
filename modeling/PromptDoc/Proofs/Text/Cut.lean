/-
# PromptDoc.Proofs.Text.Cut — where a text stands in another

`Text.cutAt?` cuts at the first place of a needle and nowhere else:
`cutAt?_eq_some_iff` says both halves, `cutAt?_isSome_iff` says when there is a
cut at all.

The grammar only looks for needles of a special kind: a closing tag holds `<` at
its front alone and `>` at its end alone, so no place of it can hang over an edge
where such a character begins or ends a text (`infix_append_open`,
`infix_append_close`), and none can overlap another.
-/
import Mathlib.Data.List.Infix
import PromptDoc.Text.Basic

namespace PromptDoc.Text

set_option autoImplicit false

/-! ## Fronts -/

/-- A front is where it is read off. -/
theorem isPrefixOf?_eq_some_iff {front t rest : Text} :
    front.isPrefixOf? t = some rest ↔ t = front ++ rest := by
  rw [List.isPrefixOf?_eq_some_iff_append_eq, eq_comm]

theorem isPrefixOf?_isSome_iff {front t : Text} : (front.isPrefixOf? t).isSome ↔ front <+: t := by
  rw [List.isSome_isPrefixOf?_eq_isPrefixOf, List.isPrefixOf_iff_prefix]

/-- A front that does not hold `c` lies before any `c`. -/
theorem front_of_append_eq {c : Char} {front rest s u : Text} (free : c ∉ front)
    (h : front ++ rest = s ++ c :: u) : ∃ s', s = front ++ s' ∧ rest = s' ++ c :: u := by
  rcases List.append_eq_append_iff.1 h with ⟨more, rfl, rfl⟩ | ⟨more, rfl, behind⟩
  · exact ⟨more, rfl, rfl⟩
  · cases more with
    | nil => exact ⟨[], by simp, by simpa using behind.symm⟩
    | cons m ms =>
        have same : c = m := (List.cons.inj behind).1
        exact absurd (by simp [same]) free

/-- A front that holds `c` at its start alone lies before any later `c`. -/
theorem front_of_append_eq_of_tail {c : Char} {front rest s u : Text} (alone : c ∉ front.tail)
    (nonempty : s ≠ []) (h : front ++ rest = s ++ c :: u) :
    ∃ s', s = front ++ s' ∧ rest = s' ++ c :: u := by
  cases s with
  | nil => exact absurd rfl nonempty
  | cons x xs =>
      cases front with
      | nil => exact ⟨x :: xs, rfl, h⟩
      | cons f fs =>
          obtain ⟨rfl, tail⟩ := List.cons.inj h
          obtain ⟨s', rfl, rfl⟩ := front_of_append_eq alone tail
          exact ⟨s', rfl, rfl⟩

/-! ## Places -/

/-- A needle that does not hold `c` stands on one side of a `c`. -/
theorem infix_append_cons {c : Char} {needle a b : Text} (free : c ∉ needle)
    (h : needle <:+: a ++ c :: b) : needle <:+: a ∨ needle <:+: b := by
  rcases List.infix_append_iff_ne_nil.1 h with inside | inside | ⟨x, y, _, nonempty, rfl, _, beyond⟩
  · exact Or.inl inside
  · rcases List.infix_cons_iff.1 inside with front | inside
    · cases needle with
      | nil => exact Or.inl (List.nil_infix)
      | cons n ns =>
          have same : n = c := (List.cons_prefix_cons.1 front).1
          exact absurd (by simp [same]) free
    · exact Or.inr inside
  · cases y with
    | nil => exact absurd rfl nonempty
    | cons n ns =>
        have same : n = c := (List.cons_prefix_cons.1 beyond).1
        exact absurd (by simp [same]) free

/-- A needle that holds `c` at its front alone does not hang over the edge before
a `c`. -/
theorem infix_append_open {c : Char} {needle a b : Text} (alone : c ∉ needle.tail)
    (h : needle <:+: a ++ c :: b) : needle <:+: a ∨ needle <:+: c :: b := by
  rcases List.infix_append_iff_ne_nil.1 h with
    inside | inside | ⟨x, y, started, nonempty, rfl, _, beyond⟩
  · exact Or.inl inside
  · exact Or.inr inside
  · cases y with
    | nil => exact absurd rfl nonempty
    | cons n ns =>
        have same : n = c := (List.cons_prefix_cons.1 beyond).1
        cases x with
        | nil => exact absurd rfl started
        | cons m ms => exact absurd (by simp [same]) alone

/-- A needle that holds `c` at its end alone does not hang over the edge behind a
`c`. -/
theorem infix_append_close {c : Char} {needle a b : Text} (alone : c ∉ needle.dropLast)
    (h : needle <:+: a ++ [c] ++ b) : needle <:+: a ++ [c] ∨ needle <:+: b := by
  rcases List.infix_append_iff_ne_nil.1 h with
    inside | inside | ⟨x, y, started, nonempty, rfl, beyond, _⟩
  · exact Or.inl inside
  · exact Or.inr inside
  · have last : c ∈ x := by
      obtain ⟨front, whole⟩ := beyond
      rcases List.eq_nil_or_concat x with rfl | ⟨xs, z, rfl⟩
      · exact absurd rfl started
      · have same := (List.append_inj' (by simpa using whole : front ++ xs ++ [z] = a ++ [c]) rfl).2
        simp_all
    rw [List.dropLast_append_of_ne_nil nonempty] at alone
    exact absurd (List.mem_append_left _ last) alone

/-- Where a needle that holds `c` at its front alone is the front of `back` and
more, and a `c` follows `back`, it lies in `back`. -/
theorem prefix_of_prefix_append {c : Char} {needle back rest : Text} (alone : c ∉ needle.tail)
    (nonempty : back ≠ []) (h : needle <+: back ++ c :: rest) : needle <+: back := by
  obtain ⟨more, whole⟩ := h
  obtain ⟨s', rfl, _⟩ := front_of_append_eq_of_tail alone nonempty whole
  exact List.prefix_append _ _

/-! ## Cutting at the first place -/

/-- The needle does not stand further to the front than where the cut is made. -/
theorem first_of_cutAt? {needle t before after : Text} (h : cutAt? needle t = some (before, after)) :
    ∀ back, back <:+ before → back ≠ [] → ¬ needle <+: back ++ needle ++ after := by
  induction t generalizing before with
  | nil =>
      have whole := append_of_cutAt? h
      simp only [List.append_eq_nil_iff] at whole
      intro back suffix nonempty
      rw [whole.1.1] at suffix
      exact absurd (List.suffix_nil.1 suffix) nonempty
  | cons c cs ih =>
      unfold cutAt? at h
      split at h
      · cases h
        intro back suffix nonempty
        exact absurd (List.suffix_nil.1 suffix) nonempty
      · rename_i absent
        simp only [Option.map_eq_some_iff, Prod.mk.injEq, Prod.exists] at h
        obtain ⟨b, a, found, rfl, rfl⟩ := h
        intro back suffix nonempty
        rcases List.suffix_cons_iff.1 suffix with rfl | suffix
        · intro front
          have whole := append_of_cutAt? found
          rw [List.cons_append, List.cons_append, whole, ← isPrefixOf?_isSome_iff, absent] at front
          cases front
        · exact ih found back suffix nonempty

/-- A cut is made where the needle stands and does not stand further to the front. -/
theorem cutAt?_eq_some_iff {needle t before after : Text} :
    cutAt? needle t = some (before, after) ↔
      t = before ++ needle ++ after ∧
        ∀ back, back <:+ before → back ≠ [] → ¬ needle <+: back ++ needle ++ after := by
  constructor
  · exact fun h => ⟨(append_of_cutAt? h).symm, first_of_cutAt? h⟩
  · rintro ⟨rfl, first⟩
    induction before with
    | nil =>
        cases shape : ([] : Text) ++ needle ++ after with
        | nil =>
            simp only [List.nil_append, List.append_eq_nil_iff] at shape
            rw [shape.1, shape.2]
            rfl
        | cons c cs =>
            have found : needle.isPrefixOf? (c :: cs) = some after := by
              rw [isPrefixOf?_eq_some_iff, ← shape, List.nil_append]
            simp only [cutAt?, found]
    | cons c cs ih =>
        have absent : needle.isPrefixOf? (c :: (cs ++ needle ++ after)) = none := by
          rw [← Option.not_isSome_iff_eq_none, isPrefixOf?_isSome_iff]
          simpa using first (c :: cs) List.suffix_rfl (List.cons_ne_nil _ _)
        have later := ih fun back suffix => first back (suffix.trans (List.suffix_cons _ _))
        simp only [List.cons_append, cutAt?, absent, later, Option.map_some]

/-- A cut at a character is made at the first one. -/
theorem cutAt?_singleton_eq_some_iff {c : Char} {t value rest : Text} :
    cutAt? [c] t = some (value, rest) ↔ t = value ++ c :: rest ∧ c ∉ value := by
  rw [cutAt?_eq_some_iff]
  simp only [List.append_assoc, List.singleton_append]
  refine and_congr_right fun _ => ⟨fun first inside => ?_, ?_⟩
  · obtain ⟨a, b, rfl⟩ := List.append_of_mem inside
    exact first (c :: b) ⟨a, rfl⟩ (List.cons_ne_nil _ _) ⟨_, rfl⟩
  · intro free back suffix nonempty front
    cases back with
    | nil => exact nonempty rfl
    | cons m ms =>
        have same : c = m := (List.cons_prefix_cons.1 front).1
        exact free (suffix.subset (by simp [same]))

/-- There is a cut exactly where the needle stands somewhere. -/
theorem cutAt?_isSome_iff {needle t : Text} : (cutAt? needle t).isSome ↔ needle <:+: t := by
  constructor
  · intro h
    obtain ⟨⟨before, after⟩, found⟩ := Option.isSome_iff_exists.1 h
    exact ⟨before, after, append_of_cutAt? found⟩
  · intro h
    induction t with
    | nil =>
        cases List.infix_nil.1 h
        rfl
    | cons c cs ih =>
        unfold cutAt?
        split
        · rfl
        · rename_i absent
          rcases List.infix_cons_iff.1 h with front | inside
          · rw [← isPrefixOf?_isSome_iff, absent] at front
            cases front
          · simpa using ih inside

end PromptDoc.Text
