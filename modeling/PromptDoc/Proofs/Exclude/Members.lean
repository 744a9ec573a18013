/-
# PromptDoc.Proofs.Exclude.Members — an exclude set is what its patterns are one by one

A set of patterns leaves a path alone if each of its patterns does, be it a file or a
directory, and it can be made if none of its patterns has a glob that is nested too
deep.  Each of the three is asked of every pattern (`excludesFile_globs`,
`excludesDirectory_globs`, `ofPatterns_eq_ok_iff`) and has nothing to do with its place
or with the patterns beside it.  Of a pattern without a glob all three hold, so it might
as well not be there.
-/
import PromptDoc.Exclude.ExcludeSet

namespace PromptDoc

set_option autoImplicit false

/-! ## Globs that a set can hold -/

namespace Glob

/-- An expression that a glob is compared by is not nested too deep. -/
def IsUsable (g : Glob) : Prop := g.comparison ≠ .plain → g.isTooDeep = false

theorem nestingDefect?_eq_none_iff {globs : List Glob} :
    nestingDefect? globs = none ↔ ∀ g ∈ globs, g.IsUsable := by
  have single (g : Glob) : g.IsUsable ↔ (g.comparison = .byExtension → g.isTooDeep = false) ∧
      (g.comparison = .byExpression → g.isTooDeep = false) := by
    cases compared : g.comparison <;> simp [IsUsable, compared]
  have alone : (globs.find? fun g => g.comparison = .byExtension && g.isTooDeep) = none ↔
      ∀ g ∈ globs, g.comparison = .byExtension → g.isTooDeep = false := by simp
  have inSet : ((globs.filter fun g => g.comparison = .byExpression).findIdx? isTooDeep) = none ↔
      ∀ g ∈ globs, g.comparison = .byExpression → g.isTooDeep = false := by simp
  simp only [single, forall_and, ← alone, ← inSet, nestingDefect?]
  split <;> simp [*]

end Glob

namespace ExcludeSet

variable {pattern path : Text} {patterns : List Text}

theorem forwardSlashes_of_not_mem {t : Text} (free : '\x5c' ∉ t) : forwardSlashes t = t := by
  have same : ∀ c ∈ t, (if c = '\x5c' then '/' else c) = c := by
    intro c inside
    have other : c ≠ '\x5c' := fun backslash => free (backslash ▸ inside)
    exact if_neg other
  rw [forwardSlashes, List.map_congr_left same, List.map_id']

/-! ## One pattern -/

/-- A pattern leaves a file alone. -/
def SparesFile (path pattern : Text) : Prop :=
  ∀ g, fileGlob? pattern = some g → g.matches path = false

/-- A pattern leaves a directory alone. -/
def SparesDirectory (path pattern : Text) : Prop :=
  ∀ g, directoryGlob? pattern = some g → g.matches path = false

/-- A set can hold the globs of a pattern. -/
structure IsUsable (pattern : Text) : Prop where
  file : ∀ g, fileGlob? pattern = some g → g.IsUsable
  directory : ∀ g, directoryGlob? pattern = some g → g.IsUsable

theorem directoryGlob?_eq_none (skipped : fileGlob? pattern = none) :
    directoryGlob? pattern = none := by
  rw [directoryGlob?, skipped]
  rfl

theorem sparesFile_of_skipped (skipped : fileGlob? pattern = none) : SparesFile path pattern :=
  fun g file => by cases skipped.symm.trans file

theorem sparesDirectory_of_skipped (skipped : fileGlob? pattern = none) :
    SparesDirectory path pattern :=
  fun g directory => by cases (directoryGlob?_eq_none skipped).symm.trans directory

theorem isUsable_of_skipped (skipped : fileGlob? pattern = none) : IsUsable pattern where
  file g file := by cases skipped.symm.trans file
  directory g directory := by cases (directoryGlob?_eq_none skipped).symm.trans directory

/-! ## All of them -/

theorem excludesFile_globs :
    (globs patterns).excludesFile path = false ↔ ∀ p ∈ patterns, SparesFile path p := by
  simp only [excludesFile, globs, List.any_eq_false, Bool.not_eq_true, List.forall_mem_filterMap,
    SparesFile]

theorem excludesDirectory_globs :
    (globs patterns).excludesDirectory path = false ↔ ∀ p ∈ patterns, SparesDirectory path p := by
  simp only [excludesDirectory, globs, List.any_eq_false, Bool.not_eq_true,
    List.forall_mem_filterMap, SparesDirectory]

/-- What one pattern excludes, the set excludes. -/
theorem excludesFile_of_mem {g : Glob} (inside : pattern ∈ patterns)
    (file : fileGlob? pattern = some g) (found : g.matches path = true) :
    (globs patterns).excludesFile path = true :=
  List.any_eq_true.2 ⟨g, List.mem_filterMap.2 ⟨pattern, inside, file⟩, found⟩

theorem excludesDirectory_of_mem {g : Glob} (inside : pattern ∈ patterns)
    (directory : directoryGlob? pattern = some g) (found : g.matches path = true) :
    (globs patterns).excludesDirectory path = true :=
  List.any_eq_true.2 ⟨g, List.mem_filterMap.2 ⟨pattern, inside, directory⟩, found⟩

theorem nestingDefect?_globs :
    (globs patterns).nestingDefect? = none ↔ ∀ p ∈ patterns, IsUsable p := by
  simp only [nestingDefect?, Option.or_eq_none_iff, Glob.nestingDefect?_eq_none_iff, globs,
    List.forall_mem_filterMap]
  constructor
  · rintro ⟨files, directories⟩ p inside
    exact ⟨files p inside, directories p inside⟩
  · exact fun usable => ⟨fun p inside => (usable p inside).file,
      fun p inside => (usable p inside).directory⟩

/-- Patterns make a set if each can be used, and it is the set of their globs. -/
theorem ofPatterns_eq_ok_iff {s : ExcludeSet} :
    ofPatterns patterns = .ok s ↔ s = globs patterns ∧ ∀ p ∈ patterns, IsUsable p := by
  rw [← nestingDefect?_globs, ofPatterns]
  cases (globs patterns).nestingDefect? with
  | some defect => simp
  | none => simp [eq_comm]

end ExcludeSet

end PromptDoc
