/-
# PromptDoc.Proofs.Glob.Words — the words that a pattern stands for

`Glob.Stands t w` says which bytes a token stands for, and `Glob.Spells ts w` which a
sequence of tokens does. Neither mentions the rest of a path: what a token takes off the
front of a path does not depend on what follows it. `mem_rests`, `mem_restsAll` and
`mem_restsAny` are the agreement with the matcher, in both directions, and
`matches_iff` what it means for a glob to match a path.

A sequence that ends in the contents of a directory never depends on the name of a path
alone, so it matches exactly the paths that it spells (`matches_append_trailing_iff`).
-/
import Mathlib.Data.List.Infix
import PromptDoc.Glob.Match
import PromptDoc.Proofs.Text.Bytes

namespace PromptDoc

set_option autoImplicit false

namespace Glob

mutual

/-- The token stands for the bytes. -/
inductive Stands : Token → Bytes → Prop
  | literal (c : Char) : Stands (.literal c) (Text.encode [c])
  | any (b : UInt8) : Stands .any [b]
  | many (w : Bytes) : Stands .many w
  | leadingNone : Stands .leading []
  | leading (w : Bytes) : Stands .leading (w ++ [slash])
  | trailing (w : Bytes) : Stands .trailing (slash :: w)
  | betweenNone : Stands .between [slash]
  | between (w : Bytes) : Stands .between (slash :: (w ++ [slash]))
  | oneOf {negated : Bool} {ranges : List (Char × Char)} {b : UInt8}
      (allowed : inRanges ranges b ≠ negated) : Stands (.oneOf negated ranges) [b]
  | nothing {branches : List (List Token)} (blank : areBlank branches = true) :
      Stands (.alternatives branches) []
  | branch {branches : List (List Token)} {branch : List Token} {w : Bytes}
      (inside : branch ∈ branches) (solid : isBlankSequence branch = false)
      (spells : Spells branch w) : Stands (.alternatives branches) w

/-- The tokens stand for the bytes, one after the other. -/
inductive Spells : List Token → Bytes → Prop
  | nil : Spells [] []
  | cons {t : Token} {ts : List Token} {w u : Bytes} (first : Stands t w) (others : Spells ts u) :
      Spells (t :: ts) (w ++ u)

end

/-! ## Rests -/

theorem tails_eq (s : Bytes) : tails s = s.tails := by
  induction s with
  | nil => rfl
  | cons b s ih => rw [tails, ih, List.tails]

theorem mem_afterSlash {s rest : Bytes} : rest ∈ afterSlash s ↔ s = slash :: rest := by
  cases s with
  | nil => simp [afterSlash]
  | cons b s =>
      by_cases same : b = slash
      · simp [afterSlash, same, eq_comm]
      · simp [afterSlash, same]

theorem mem_afterSlashes {s rest : Bytes} : rest ∈ afterSlashes s ↔ ∃ w, s = w ++ slash :: rest := by
  simp only [afterSlashes, List.mem_filterMap, tails_eq, List.mem_tails]
  constructor
  · rintro ⟨tail, ⟨w, rfl⟩, found⟩
    cases tail with
    | nil => cases found
    | cons b rest' =>
        simp only [Option.ite_none_right_eq_some, Option.some.injEq] at found
        obtain ⟨rfl, rfl⟩ := found
        exact ⟨w, rfl⟩
  · rintro ⟨w, rfl⟩
    exact ⟨slash :: rest, ⟨w, rfl⟩, by simp⟩

theorem areBlank_eq_false {branches : List (List Token)} {branch : List Token}
    (inside : branch ∈ branches) (solid : isBlankSequence branch = false) :
    areBlank branches = false := by
  induction branches with
  | nil => cases inside
  | cons first others ih =>
      rw [areBlank]
      rcases List.mem_cons.1 inside with rfl | later
      · simp [solid]
      · simp [ih later]

theorem stands_leading {w : Bytes} : Stands .leading w ↔ w = [] ∨ ∃ u, w = u ++ [slash] := by
  constructor
  · intro stands
    cases stands with
    | leadingNone => exact Or.inl rfl
    | leading u => exact Or.inr ⟨u, rfl⟩
  · rintro (rfl | ⟨u, rfl⟩)
    · exact .leadingNone
    · exact .leading u

theorem spells_nil {w : Bytes} : Spells [] w ↔ w = [] :=
  ⟨fun h => by cases h; rfl, fun empty => empty ▸ .nil⟩

theorem spells_cons {t : Token} {ts : List Token} {w : Bytes} :
    Spells (t :: ts) w ↔ ∃ u v, Stands t u ∧ Spells ts v ∧ w = u ++ v := by
  constructor
  · intro h
    cases h with
    | @cons _ _ u v first others => exact ⟨u, v, first, others, rfl⟩
  · rintro ⟨u, v, first, others, rfl⟩
    exact .cons first others

theorem spells_singleton {t : Token} {w : Bytes} : Spells [t] w ↔ Stands t w := by
  simp [spells_cons, spells_nil]

theorem spells_append {ts us : List Token} {w : Bytes} :
    Spells (ts ++ us) w ↔ ∃ u v, Spells ts u ∧ Spells us v ∧ w = u ++ v := by
  induction ts generalizing w with
  | nil => simp [spells_nil]
  | cons t ts ih =>
      rw [List.cons_append, spells_cons]
      constructor
      · rintro ⟨u, _, first, others, rfl⟩
        obtain ⟨v, x, here, later, rfl⟩ := ih.1 others
        exact ⟨u ++ v, x, .cons first here, later, by simp⟩
      · rintro ⟨_, x, here, later, rfl⟩
        obtain ⟨u, v, first, others, rfl⟩ := spells_cons.1 here
        exact ⟨u, v ++ x, first, ih.2 ⟨v, x, others, later, rfl⟩, by simp⟩

/-- Characters that stand for themselves spell the text that they are. -/
theorem spells_literals {name : Text} {w : Bytes} :
    Spells (name.map .literal) w ↔ w = Text.encode name := by
  induction name generalizing w with
  | nil => exact spells_nil
  | cons c cs ih =>
      have whole : Text.encode (c :: cs) = Text.encode [c] ++ Text.encode cs :=
        Text.encode_append [c] cs
      rw [List.map_cons, spells_cons, whole]
      constructor
      · rintro ⟨_, v, ⟨⟩, others, rfl⟩
        rw [ih.1 others]
      · rintro rfl
        exact ⟨_, _, .literal c, ih.2 rfl, rfl⟩

/-- A name in any directory spells the paths that end in it. -/
theorem spells_anywhere {name : Text} {w : Bytes} :
    Spells (.leading :: name.map .literal) w ↔
      ∃ front, Stands .leading front ∧ w = front ++ Text.encode name := by
  rw [spells_cons]
  simp only [spells_literals]
  constructor
  · rintro ⟨front, _, stands, rfl, whole⟩
    exact ⟨front, stands, whole⟩
  · rintro ⟨front, stands, whole⟩
    exact ⟨front, _, stands, rfl, whole⟩

/-! ## The matcher -/

mutual

/-- What a token leaves of a path is what follows a word that it stands for. -/
theorem mem_rests (t : Token) (s rest : Bytes) :
    rest ∈ rests t s ↔ ∃ w, Stands t w ∧ s = w ++ rest := by
  cases t with
  | literal c =>
      simp only [rests, Option.mem_toList, List.isPrefixOf?_eq_some_iff_append_eq]
      constructor
      · rintro rfl
        exact ⟨_, .literal c, rfl⟩
      · rintro ⟨_, ⟨⟩, rfl⟩
        rfl
  | any =>
      simp only [rests, Option.mem_toList]
      constructor
      · intro found
        cases s with
        | nil => cases found
        | cons b s =>
            cases found
            exact ⟨_, .any b, rfl⟩
      · rintro ⟨_, ⟨b⟩, rfl⟩
        rfl
  | many =>
      simp only [rests, tails_eq, List.mem_tails]
      constructor
      · rintro ⟨w, rfl⟩
        exact ⟨w, .many w, rfl⟩
      · rintro ⟨w, _, rfl⟩
        exact List.suffix_append w rest
  | leading =>
      simp only [rests, List.mem_cons, mem_afterSlashes]
      constructor
      · rintro (rfl | ⟨w, rfl⟩)
        · exact ⟨_, .leadingNone, rfl⟩
        · exact ⟨_, .leading w, by simp⟩
      · rintro ⟨_, stands, rfl⟩
        cases stands with
        | leadingNone => exact Or.inl rfl
        | leading w => exact Or.inr ⟨w, by simp⟩
  | trailing =>
      simp only [rests, List.mem_flatMap, mem_afterSlash, tails_eq, List.mem_tails]
      constructor
      · rintro ⟨_, rfl, w, rfl⟩
        exact ⟨_, .trailing w, rfl⟩
      · rintro ⟨_, stands, rfl⟩
        cases stands with
        | trailing w => exact ⟨w ++ rest, rfl, List.suffix_append w rest⟩
  | between =>
      simp only [rests, List.mem_flatMap, mem_afterSlash, List.mem_cons, mem_afterSlashes]
      constructor
      · rintro ⟨_, rfl, rfl | ⟨w, rfl⟩⟩
        · exact ⟨_, .betweenNone, rfl⟩
        · exact ⟨_, .between w, by simp⟩
      · rintro ⟨_, stands, rfl⟩
        cases stands with
        | betweenNone => exact ⟨rest, rfl, Or.inl rfl⟩
        | between w => exact ⟨w ++ slash :: rest, by simp, Or.inr ⟨w, rfl⟩⟩
  | oneOf negated ranges =>
      constructor
      · intro found
        cases s with
        | nil => simp [rests] at found
        | cons b s =>
            simp only [rests] at found
            split at found
            · cases found
            · rename_i allowed
              rw [List.mem_singleton] at found
              exact ⟨_, .oneOf allowed, by rw [found]; rfl⟩
      · rintro ⟨_, stands, rfl⟩
        cases stands with
        | oneOf allowed => simp [rests, allowed]
  | alternatives branches =>
      rw [rests]
      split
      · rename_i blank
        rw [List.mem_singleton]
        constructor
        · rintro rfl
          exact ⟨_, .nothing blank, rfl⟩
        · rintro ⟨_, stands, rfl⟩
          cases stands with
          | nothing => rfl
          | branch inside solid =>
              rw [areBlank_eq_false inside solid] at blank
              cases blank
      · rename_i solid
        rw [mem_restsAny branches]
        constructor
        · rintro ⟨branch, inside, solid', w, spells, rfl⟩
          exact ⟨w, .branch inside solid' spells, rfl⟩
        · rintro ⟨w, stands, rfl⟩
          cases stands with
          | nothing blank => exact absurd blank solid
          | branch inside solid' spells => exact ⟨_, inside, solid', w, spells, rfl⟩

theorem mem_restsAll (ts : List Token) (ss : List Bytes) (rest : Bytes) :
    rest ∈ restsAll ts ss ↔ ∃ s ∈ ss, ∃ w, Spells ts w ∧ s = w ++ rest := by
  cases ts with
  | nil => simp [restsAll, spells_nil]
  | cons t ts =>
      rw [restsAll, mem_restsAll ts]
      simp only [List.mem_eraseDups, List.mem_flatMap]
      constructor
      · rintro ⟨_, ⟨s, inside, left⟩, v, others, rfl⟩
        obtain ⟨u, first, rfl⟩ := (mem_rests t s _).1 left
        exact ⟨_, inside, u ++ v, .cons first others, by simp⟩
      · rintro ⟨s, inside, w, spells, rfl⟩
        obtain ⟨u, v, first, others, rfl⟩ := spells_cons.1 spells
        exact ⟨v ++ rest, ⟨_, inside, (mem_rests t _ _).2 ⟨u, first, by simp⟩⟩, v, others, rfl⟩

theorem mem_restsAny (branches : List (List Token)) (s rest : Bytes) :
    rest ∈ restsAny branches s ↔
      ∃ branch ∈ branches, isBlankSequence branch = false ∧ ∃ w, Spells branch w ∧ s = w ++ rest := by
  cases branches with
  | nil => simp [restsAny]
  | cons branch branches =>
      rw [restsAny, List.mem_append, mem_restsAny branches]
      simp only [List.mem_cons, exists_eq_or_imp]
      refine or_congr ?_ Iff.rfl
      cases solid : isBlankSequence branch with
      | true => simp
      | false =>
          rw [if_neg (by simp), mem_restsAll branch]
          simp only [List.mem_singleton, exists_eq_left, true_and]

end

/-! ## Paths that match -/

section Trailing

variable {ts : List Token} (inside : .trailing ∈ ts)
include inside

theorem all_isLiteral_eq_false (except : List Char) : ts.all (isLiteral except) = false :=
  List.all_eq_false.2 ⟨_, inside, by simp [isLiteral]⟩

theorem trailing_mem_afterLeading : .trailing ∈ afterLeading ts := by
  unfold afterLeading
  split
  · simpa using inside
  · exact inside

theorem isPlainName_eq_false : isPlainName ts = false := by
  unfold isPlainName
  split
  · exact all_isLiteral_eq_false (by simpa using inside) _
  · rfl

theorem isAnyWithExtension_eq_false : isAnyWithExtension ts = false := by
  have later := trailing_mem_afterLeading inside
  unfold isAnyWithExtension
  split
  · rename_i extension shape
    exact all_isLiteral_eq_false (by simpa [shape] using later) _
  · rfl

end Trailing

theorem endsInExtension_append_trailing (ts : List Token) :
    endsInExtension (ts ++ [.trailing]) = false := by
  have none_ : ending (ts ++ [.trailing]) = [] := by simp [ending, isLiteral]
  rw [endsInExtension, none_]
  rfl

/-- A pattern of what is in a directory does not depend on the name of a path alone. -/
theorem isByName_append_trailing (ts : List Token) : isByName (ts ++ [.trailing]) = false := by
  have inside : .trailing ∈ ts ++ [.trailing] := by simp
  rw [isByName, isPlainName_eq_false inside, isAnyWithExtension_eq_false inside,
    endsInExtension_append_trailing, Bool.and_false]
  rfl

end Glob

open Glob

/-- **What a glob matches.**  A lone `**` matches every path, and any other pattern the paths that it
spells, those without a name only if it does not depend on the name alone. -/
theorem Glob.matches_iff {g : Glob} {path : Text} :
    g.matches path = true ↔
      g.tokens = [.leading] ∨
        (hasName path = true ∨ isByName g.tokens = false) ∧ Spells g.tokens (Text.encode path) := by
  unfold Glob.matches
  split
  · rename_i lone
    simp [lone]
  · rename_i other
    have several : g.tokens ≠ [.leading] := other
    simp only [several, Bool.and_eq_true, Bool.or_eq_true, Bool.not_eq_true',
      List.contains_iff_mem, mem_restsAll, List.mem_singleton, exists_eq_left, List.append_nil,
      exists_eq_right', false_or]

/-- A pattern of what is in a directory matches the paths whose front it spells up to a slash. -/
theorem Glob.matches_append_trailing_iff (ts : List Token) {path : Text} :
    (Glob.mk (ts ++ [.trailing])).matches path = true ↔
      ∃ front inside, Spells ts front ∧ Text.encode path = front ++ slash :: inside := by
  have several : ts ++ [Token.trailing] ≠ [.leading] := by
    intro lone
    have inside : .trailing ∈ [Token.leading] := by simp [← lone]
    simp at inside
  rw [matches_iff]
  simp only [several, isByName_append_trailing, or_true, true_and, false_or, spells_append]
  constructor
  · rintro ⟨front, _, spells, last, whole⟩
    obtain ⟨_, _, ⟨inside⟩, ⟨⟩, rfl⟩ := spells_cons.1 last
    exact ⟨front, _, spells, by simpa using whole⟩
  · rintro ⟨front, inside, spells, whole⟩
    exact ⟨front, _, spells, .cons (.trailing inside) .nil, by simpa using whole⟩

end PromptDoc
