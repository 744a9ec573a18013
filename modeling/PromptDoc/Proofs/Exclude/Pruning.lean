/-
# PromptDoc.Proofs.Exclude.Pruning — excluded directories and what is in them

A directory is excluded by what stands before `/**` in a pattern, read as a glob of its
own, and a file by the pattern as a whole. `excludesFile_of_excludesDirectory` says
that whatever is in an excluded directory is excluded, so a listing that does not enter
it misses nothing.

The two readings part where a pattern is `**/` several times over with `/**` behind it
(`IsSlashed`): the directory is then read as any directory, but the pattern asks for a
path with a slash at its front or two slashes in it (`globs_of_isSlashed`).
-/
import PromptDoc.Proofs.Exclude.Members
import PromptDoc.Proofs.Glob.Outline
import PromptDoc.Proofs.Glob.Words

namespace PromptDoc

set_option autoImplicit false

open Glob

namespace ExcludeSet

/-! ## The parts of a pattern -/

theorem directoryPart?_eq_some_iff {pattern directory : Text} :
    directoryPart? pattern = some directory ↔ directory ≠ [] ∧ pattern = directory ++ contents := by
  have reverse (reversed : Text) : "**/".toList ++ reversed = pattern.reverse ↔
      pattern = reversed.reverse ++ contents := by
    rw [eq_comm, List.reverse_eq_iff, List.reverse_append]
    rfl
  simp only [directoryPart?, Option.bind_eq_bind, Option.bind_eq_some_iff,
    List.isPrefixOf?_eq_some_iff_append_eq, reverse]
  constructor
  · rintro ⟨reversed, rfl, rest⟩
    split at rest
    · cases rest
    · rename_i nonempty
      cases rest
      exact ⟨by simpa using nonempty, rfl⟩
  · rintro ⟨nonempty, rfl⟩
    refine ⟨directory.reverse, by rw [List.reverse_reverse], ?_⟩
    rw [if_neg (by simpa using nonempty), List.reverse_reverse]
    rfl

theorem toOption_eq_some_iff {β γ : Type} {a : Except β γ} {b : γ} :
    a.toOption = some b ↔ a = .ok b := by
  cases a <;> simp [Except.toOption]

theorem fileGlob?_eq_some_iff {pattern : Text} {g : Glob} :
    fileGlob? pattern = some g ↔ normalize pattern ≠ [] ∧ ofText (normalize pattern) = .ok g := by
  rw [fileGlob?, Option.ite_none_left_eq_some, toOption_eq_some_iff]

theorem directoryGlob?_eq_some_iff {pattern : Text} {g : Glob} :
    directoryGlob? pattern = some g ↔ ∃ directory whole, directory ≠ [] ∧
      normalize pattern = directory ++ contents ∧ ofText directory = .ok g ∧
        ofText (normalize pattern) = .ok whole := by
  simp only [directoryGlob?, Option.bind_eq_bind, Option.bind_eq_some_iff, fileGlob?_eq_some_iff,
    directoryPart?_eq_some_iff, toOption_eq_some_iff]
  constructor
  · rintro ⟨whole, ⟨-, file⟩, directory, ⟨nonempty, shape⟩, read⟩
    exact ⟨directory, whole, nonempty, shape, read, file⟩
  · rintro ⟨directory, whole, nonempty, shape, read, file⟩
    have solid : normalize pattern ≠ [] := by simp [shape, contents]
    exact ⟨whole, ⟨solid, file⟩, directory, ⟨nonempty, shape⟩, read⟩

/-- A pattern is `**/` several times over and `/**`. -/
def IsSlashed (pattern : Text) : Prop := ∃ n, normalize pattern = doubleStars (n + 1) ++ contents

instance (pattern : Text) : Decidable (IsSlashed pattern) :=
  decidable_of_iff (∃ n < (normalize pattern).length,
    normalize pattern = doubleStars (n + 1) ++ contents) <| by
  constructor
  · rintro ⟨n, -, shape⟩
    exact ⟨n, shape⟩
  · rintro ⟨n, shape⟩
    have size := congrArg List.length shape
    rw [List.length_append, length_doubleStars] at size
    exact ⟨n, by omega, shape⟩

/-- The directory of such a pattern is any, but what the pattern asks for stands in none: a path that
begins with a slash or has two of them beside each other. -/
theorem globs_of_isSlashed {pattern : Text} (slashed : IsSlashed pattern) :
    ∃ directory whole, directoryGlob? pattern = some directory ∧ fileGlob? pattern = some whole ∧
      (∀ path, directory.matches path = true) ∧
      ∀ path, whole.matches path = true ↔
        ∃ front inside, (front = [] ∨ ∃ w, front = w ++ [slash]) ∧
          Text.encode path = front ++ slash :: inside := by
  obtain ⟨n, shape⟩ := slashed
  obtain ⟨read, file⟩ := ofText_doubleStars_succ n
  rw [← shape] at file
  have solid : normalize pattern ≠ [] := by simp [shape, contents]
  refine ⟨_, _, directoryGlob?_eq_some_iff.2 ⟨_, _, ?_, shape, read, file⟩,
    fileGlob?_eq_some_iff.2 ⟨solid, file⟩, fun path => rfl, fun path => ?_⟩
  · simp [doubleStars_succ]
  · simp only [← stands_leading, ← spells_singleton]
    exact matches_append_trailing_iff [.leading]

theorem encode_below (directory rest : Text) :
    Text.encode (directory ++ '/' :: rest) =
      Text.encode directory ++ slash :: Text.encode rest := by
  rw [Text.encode_append]
  rfl

/-- What a directory glob matches is a directory whose contents the glob of the pattern matches. -/
theorem fileGlob?_of_directoryGlob? {pattern : Text} {g : Glob} (regular : ¬ IsSlashed pattern)
    (compiled : directoryGlob? pattern = some g) :
    ∃ whole, fileGlob? pattern = some whole ∧
      ∀ directory rest, g.matches directory = true →
        whole.matches (directory ++ '/' :: rest) = true := by
  obtain ⟨part, whole, nonempty, shape, read, file⟩ := directoryGlob?_eq_some_iff.1 compiled
  have other : ∀ n, part ≠ doubleStars n := by
    rintro (_ | n) rfl
    · exact nonempty rfl
    · exact regular ⟨n, shape⟩
  refine ⟨whole, fileGlob?_eq_some_iff.2 ⟨by simp [shape, contents], file⟩, ?_⟩
  rw [shape] at file
  obtain ⟨ts⟩ := g
  intro directory rest found
  rcases ofText_append_contents read other with ⟨lone, same⟩ | ⟨us, tokens, several, same⟩
  · cases file.symm.trans same
    rfl
  · cases file.symm.trans same
    rw [matches_append_trailing_iff, encode_below]
    rcases tokens with rfl | rfl
    · -- The pattern has one token more than that of the directory, for what is in it.
      have spells := ((matches_iff.1 found).resolve_left several).2
      exact ⟨_, _, spells, rfl⟩
    · -- The pattern is that of the directory, which itself is about what is in a directory.
      obtain ⟨front, inside, spells, split⟩ := (matches_append_trailing_iff us).1 found
      exact ⟨front, inside ++ slash :: Text.encode rest, spells, by rw [split]; simp⟩

/-- **What is in an excluded directory is excluded.** -/
theorem excludesFile_of_excludesDirectory {patterns : List Text} {s : ExcludeSet}
    (regular : ∀ p ∈ patterns, ¬ IsSlashed p) (compiled : ofPatterns patterns = .ok s)
    {directory : Text} (rest : Text) (excluded : s.excludesDirectory directory = true) :
    s.excludesFile (directory ++ '/' :: rest) = true := by
  obtain rfl := (ofPatterns_eq_ok_iff.1 compiled).1
  obtain ⟨g, listed, found⟩ := List.any_eq_true.1 excluded
  obtain ⟨pattern, inside, read⟩ := List.mem_filterMap.1 listed
  obtain ⟨whole, file, below⟩ := fileGlob?_of_directoryGlob? (regular pattern inside) read
  exact excludesFile_of_mem inside file (below directory rest found)

end ExcludeSet

end PromptDoc
