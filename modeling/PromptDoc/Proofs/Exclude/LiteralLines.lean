/-
# PromptDoc.Proofs.Exclude.LiteralLines — what a `.gitignore` line without wildcards excludes

A `LiteralLine` is components one slash apart, which a slash may stand before and slashes
behind. Its pattern is the components at any depth, with `/**` behind them if the line ends in a
slash or holds no dot (`LiteralLine.pattern_text`), so it excludes the paths that have the
components before their last one, or those that end in them.

`excludesFile_literalLine` says so for every line and every path, with one exception: the line `..`
is a name to compare the name of a path with, and a path that ends in `..` has none
(`not_excludesFile_parent`).
-/
import PromptDoc.Exclude.Gitignore
import PromptDoc.Proofs.Exclude.Pruning
import PromptDoc.Proofs.Glob.Names

namespace PromptDoc

set_option autoImplicit false

open Glob ExcludeSet

namespace Gitignore

variable {t path directory : Text}

/-! ## The last pattern -/

theorem gitDirectory_mem_patterns (t : Text) : gitDirectory ∈ patterns t :=
  List.mem_append_right _ (List.mem_singleton.2 rfl)

theorem fileGlob?_gitDirectory :
    fileGlob? gitDirectory = some ⟨atAnyDepth ".git".toList ++ [.trailing]⟩ := by
  cbv

theorem directoryGlob?_gitDirectory :
    directoryGlob? gitDirectory = some ⟨atAnyDepth ".git".toList⟩ := by
  cbv

/-- What is in a `.git` directory is what the last pattern matches. -/
theorem matches_gitDirectory_iff :
    (Glob.mk (atAnyDepth ".git".toList ++ [.trailing])).matches path = true ↔
      ".git".toList ∈ (path.splitOn '/').dropLast :=
  (@matches_contents_iff [".git".toList] path (by decide) (by decide)).trans
    (List.singleton_infix_iff _ _)

/-- What is in a `.git` directory is excluded, whatever a `.gitignore` says. -/
theorem excludesFile_patterns (t : Text)
    (inside : ".git".toList ∈ (path.splitOn '/').dropLast) :
    (globs (patterns t)).excludesFile path = true :=
  excludesFile_of_mem (gitDirectory_mem_patterns t) fileGlob?_gitDirectory
    (matches_gitDirectory_iff.2 inside)

/-- And so is the directory itself. -/
theorem excludesDirectory_patterns (t : Text)
    (last : (directory.splitOn '/').getLast? = some ".git".toList) :
    (globs (patterns t)).excludesDirectory directory = true := by
  refine excludesDirectory_of_mem (gitDirectory_mem_patterns t) directoryGlob?_gitDirectory ?_
  obtain ⟨above, split⟩ := List.getLast?_eq_some_iff.1 last
  exact (@matches_atAnyDepth_iff [".git".toList] directory (by decide) (by decide)
    (by decide)).2 ⟨⟨above, split.symm⟩, by decide⟩

/-- A set can hold the last pattern. -/
theorem isUsable_gitDirectory : ExcludeSet.IsUsable gitDirectory where
  file g file := by
    cases fileGlob?_gitDirectory.symm.trans file
    exact isUsable_contents _
  directory g directory := by
    cases directoryGlob?_gitDirectory.symm.trans directory
    exact isUsable_atAnyDepth (by decide)

end Gitignore

/-! ## Lines without wildcards -/

/-- A line of names one slash apart, which a slash may stand before and slashes behind. -/
structure LiteralLine where
  /-- Whether a slash stands before the names. -/
  anchored : Bool
  components : List Text
  /-- How many slashes stand behind the names. -/
  slashes : Nat
  nonempty : components ≠ []
  solid : ∀ component ∈ components, component ≠ []
  plain : ∀ component ∈ components, ∀ c ∈ component, c ∉ "/*?[]\x7b\x7d\x5c\n".toList

namespace LiteralLine

def name (l : LiteralLine) : Text := ['/'].intercalate l.components

def text (l : LiteralLine) : Text :=
  (if l.anchored then ['/'] else []) ++ l.name ++ List.replicate l.slashes '/'

variable (l : LiteralLine)

/-! ### The characters of a line -/

theorem slash_not_mem {component : Text} (inside : component ∈ l.components) : '/' ∉ component :=
  fun held => l.plain component inside '/' held (by decide)

/-- Besides slashes, a line has no character that means something in a pattern. -/
theorem not_mem_name {c : Char} (special : c ∈ "*?[]\x7b\x7d\x5c\n".toList) : c ∉ l.name := by
  intro held
  have other : c ∉ ['/'] := by
    rintro slash
    rw [List.mem_singleton.1 slash] at special
    simp at special
  obtain ⟨component, inside, held⟩ := Text.exists_of_mem_intercalate other held
  exact l.plain component inside c held (List.mem_cons_of_mem '/' special)

theorem isSpecial_of_mem_name {c : Char} (held : c ∈ l.name) : isSpecial c = false := by
  rw [Bool.eq_false_iff]
  intro special
  have listed : c ∈ "*?[\x7b\x7d".toList := List.contains_iff_mem.1 special
  exact l.not_mem_name (by simp at listed ⊢; tauto) held

/-- The names begin with a character other than a slash. -/
theorem exists_name_eq_cons : ∃ c cs, l.name = c :: cs ∧ c ≠ '/' := by
  obtain ⟨first, others, shape⟩ := List.exists_cons_of_ne_nil l.nonempty
  have inside : first ∈ l.components := by simp [shape]
  obtain ⟨c, cs, text⟩ := List.exists_cons_of_ne_nil (l.solid first inside)
  have other : c ≠ '/' := fun slash => l.slash_not_mem inside (by simp [text, slash])
  rw [name, shape, text]
  cases others with
  | nil => exact ⟨c, cs, by simp, other⟩
  | cons second others => exact ⟨c, _, by rw [List.intercalate_cons_cons]; rfl, other⟩

/-- The names end with a character other than a slash. -/
theorem exists_name_eq_concat : ∃ front c, l.name = front ++ [c] ∧ c ≠ '/' := by
  obtain ⟨others, last, shape⟩ := (List.eq_nil_or_concat' l.components).resolve_left l.nonempty
  have inside : last ∈ l.components := by simp [shape]
  obtain ⟨front, c, text⟩ := (List.eq_nil_or_concat' last).resolve_left (l.solid last inside)
  have other : c ≠ '/' := fun slash => l.slash_not_mem inside (by simp [text, slash])
  rw [name, shape]
  by_cases single : others = []
  · exact ⟨front, c, by simp [single, text], other⟩
  · refine ⟨['/'].intercalate others ++ ['/'] ++ front, c, ?_, other⟩
    rw [Text.intercalate_append single (List.cons_ne_nil _ _), List.intercalate_singleton, text]
    simp

theorem name_ne_nil : l.name ≠ [] := by
  obtain ⟨c, cs, shape, -⟩ := l.exists_name_eq_cons
  simp [shape]

theorem newline_not_mem_text : '\n' ∉ l.text := by
  have names := l.not_mem_name (c := '\n') (by decide)
  cases anchored : l.anchored <;> simp [text, anchored, names]

theorem dot_mem_text_iff : '.' ∈ l.text ↔ '.' ∈ l.name := by
  cases anchored : l.anchored <;> simp [text, anchored]

/-! ### The pattern of a line -/

theorem unanchored_text :
    Gitignore.unanchored l.text = l.name ++ List.replicate l.slashes '/' := by
  obtain ⟨c, cs, shape, other⟩ := l.exists_name_eq_cons
  cases anchored : l.anchored with
  | true => simp [text, anchored, Gitignore.unanchored]
  | false =>
      rw [text, anchored, shape]
      unfold Gitignore.unanchored
      split
      · rename_i slash
        exact absurd (List.cons.inj slash).1 other
      · rfl

theorem anywhere_name (slashes : Text) :
    Gitignore.anywhere (l.name ++ slashes) = "**/".toList ++ l.name ++ slashes := by
  have star : '*' ∉ l.name := l.not_mem_name (by decide)
  obtain ⟨c, cs, shape, -⟩ := l.exists_name_eq_cons
  have other : ¬ "**/".toList.isPrefixOf (l.name ++ slashes) := by
    intro front
    rw [List.isPrefixOf_iff_prefix, shape] at front
    have same : '*' = c := (List.cons_prefix_cons.1 front).1
    exact star (by simp [shape, ← same])
  rw [Gitignore.anywhere, if_neg other, List.append_assoc]

/-- A line that ends in a slash stands for what is in a directory. -/
theorem withContents_of_slashes (more : 0 < l.slashes) :
    Gitignore.withContents ("**/".toList ++ l.name ++ List.replicate l.slashes '/') =
      "**/".toList ++ l.name ++ contents := by
  obtain ⟨n, succ⟩ := Nat.exists_eq_add_of_lt more
  obtain ⟨front, c, shape, other⟩ := l.exists_name_eq_concat
  have last : ("**/".toList ++ l.name ++ List.replicate l.slashes '/').getLast? = some '/' := by
    rw [List.getLast?_append_of_ne_nil _ (by simp; omega), List.getLast?_replicate, if_neg (by omega)]
  have slashes : ∀ d ∈ (List.replicate l.slashes '/').reverse, decide (d = '/') = true := by simp
  have names : ((c :: ("**/".toList ++ front).reverse).dropWhile (· = '/')) =
      c :: ("**/".toList ++ front).reverse :=
    List.dropWhile_cons_of_neg (by simpa using other)
  rw [Gitignore.withContents, if_pos last, List.reverse_append,
    List.dropWhile_append_of_pos slashes, shape, ← List.append_assoc, List.reverse_concat, names,
    List.reverse_cons, List.reverse_reverse]
  rfl

/-- The names themselves do not mean it. -/
theorem not_contents_suffix : ¬ contents <:+ "**/".toList ++ l.name := by
  rintro ⟨before, whole⟩
  obtain ⟨front, c, shape, -⟩ := l.exists_name_eq_concat
  have last := congrArg List.getLast? whole
  rw [shape, ← List.append_assoc, List.getLast?_concat,
    List.getLast?_append_of_ne_nil _ (by decide)] at last
  have star : '*' = c := Option.some.inj last
  exact l.not_mem_name (c := '*') (by decide) (by simp [shape, ← star])

/-- One without a dot does so too; any other line stands for what it names. -/
theorem withContents_name :
    Gitignore.withContents ("**/".toList ++ l.name) =
      "**/".toList ++ l.name ++ if '.' ∈ l.name then [] else contents := by
  have noSlash : ("**/".toList ++ l.name).getLast? ≠ some '/' := by
    obtain ⟨front, c, shape, other⟩ := l.exists_name_eq_concat
    rw [shape, ← List.append_assoc, List.getLast?_concat]
    simpa using other
  have noContents : "/**".toList.isSuffixOf ("**/".toList ++ l.name) = false :=
    Bool.eq_false_iff.2 fun suffix =>
      l.not_contents_suffix (List.isSuffixOf_iff_suffix.1 suffix)
  have dot : ("**/".toList ++ l.name).contains '.' = decide ('.' ∈ l.name) := by simp
  rw [Gitignore.withContents, if_neg noSlash, noContents, dot, Bool.false_or]
  by_cases held : '.' ∈ l.name <;> simp [held, contents]

/-- Whether a line stands for what is in a directory. -/
def MeansDirectory : Prop := 0 < l.slashes ∨ '.' ∉ l.text

instance : Decidable l.MeansDirectory :=
  inferInstanceAs (Decidable (0 < l.slashes ∨ '.' ∉ l.text))

theorem pattern_text :
    Gitignore.pattern l.text =
      "**/".toList ++ l.name ++ if l.MeansDirectory then contents else [] := by
  rw [Gitignore.pattern, unanchored_text, anywhere_name]
  rcases Nat.eq_zero_or_pos l.slashes with none_ | more
  · have means : l.MeansDirectory ↔ '.' ∉ l.name := by
      rw [MeansDirectory, dot_mem_text_iff, none_]
      simp
    rw [none_, List.replicate_zero, List.append_nil, withContents_name]
    by_cases held : '.' ∈ l.name <;> simp [means, held]
  · have means : l.MeansDirectory := Or.inl more
    rw [withContents_of_slashes l more, if_pos means]

/-! ### The glob of a line -/

def glob : Glob :=
  if l.MeansDirectory then ⟨atAnyDepth l.name ++ [.trailing]⟩ else ⟨atAnyDepth l.name⟩

theorem ofText_pattern : Glob.ofText (Gitignore.pattern l.text) = .ok l.glob := by
  obtain ⟨named, inside⟩ := ofText_atAnyDepth fun c held => l.isSpecial_of_mem_name held
  rw [pattern_text, glob]
  by_cases means : l.MeansDirectory
  · rw [if_pos means, if_pos means, inside]
  · rw [if_neg means, if_neg means, List.append_nil, named]

/-- A file is excluded by a line if its path goes on behind the components, or ends in them. -/
theorem matches_glob_iff {path : Text} :
    l.glob.matches path = true ↔
      l.MeansDirectory ∧ l.components <:+: (path.splitOn '/').dropLast ∨
        ¬ l.MeansDirectory ∧ l.components <:+ path.splitOn '/' ∧ l.components ≠ ["..".toList] := by
  have free : ∀ c ∈ l.components, '/' ∉ c := fun c inside => l.slash_not_mem inside
  by_cases means : l.MeansDirectory
  · rw [glob, if_pos means, name, matches_contents_iff l.nonempty free]
    simp [means]
  · rw [glob, if_neg means, name, matches_atAnyDepth_iff l.nonempty l.solid free]
    simp [means]

theorem isUsable_glob : l.glob.IsUsable := by
  rw [glob]
  split
  · exact isUsable_contents l.name
  · exact isUsable_atAnyDepth l.name_ne_nil

section Trimmed

variable (trimmed : Text.trim l.text = l.text)
include trimmed

/-- Where no blanks stand around a line, none stand around its pattern. -/
theorem tight_pattern : Text.Tight (Gitignore.pattern l.text) := by
  have stars : Text.Tight "**/".toList := Text.tight_of_trim (by decide)
  rw [pattern_text]
  by_cases means : l.MeansDirectory
  · rw [if_pos means]
    exact stars.surround (Text.tight_of_trim (by decide)) (by decide) (by decide) l.name
  · obtain ⟨front, c, shape, -⟩ := l.exists_name_eq_concat
    obtain ⟨none_, -⟩ := not_or.1 means
    have last : l.text.getLast? = some c := by
      rw [text, Nat.eq_zero_of_not_pos none_, List.replicate_zero, List.append_nil, shape,
        ← List.append_assoc, List.getLast?_concat]
    have solid : Text.isBlank c = false := (Text.tight_of_trim trimmed).last c last
    have end_ : Text.Tight [c] :=
      ⟨fun d first => by cases first; exact solid, fun d last => by cases last; exact solid⟩
    rw [if_neg means, List.append_nil, shape, ← List.append_assoc]
    exact stars.surround end_ (by decide) (List.cons_ne_nil c []) front

/-- The pattern of a line is read as it is. -/
theorem normalize_pattern :
    ExcludeSet.normalize (Gitignore.pattern l.text) = Gitignore.pattern l.text := by
  have names : '\x5c' ∉ l.name := l.not_mem_name (by decide)
  have free : '\x5c' ∉ Gitignore.pattern l.text := by
    rw [pattern_text]
    split <;> simp [names, contents]
  rw [ExcludeSet.normalize, Text.trim_of_tight (l.tight_pattern trimmed),
    forwardSlashes_of_not_mem free]

theorem fileGlob?_pattern : fileGlob? (Gitignore.pattern l.text) = some l.glob := by
  rw [fileGlob?_eq_some_iff, l.normalize_pattern trimmed]
  exact ⟨by simp [pattern_text], l.ofText_pattern⟩

theorem isUsable_pattern : ExcludeSet.IsUsable (Gitignore.pattern l.text) where
  file g file := by
    cases (l.fileGlob?_pattern trimmed).symm.trans file
    exact l.isUsable_glob
  directory g directory := by
    obtain ⟨part, whole, -, shape, read, -⟩ := directoryGlob?_eq_some_iff.1 directory
    rw [l.normalize_pattern trimmed, pattern_text] at shape
    by_cases means : l.MeansDirectory
    · rw [if_pos means] at shape
      rw [← List.append_cancel_right shape,
        (ofText_atAnyDepth fun c held => l.isSpecial_of_mem_name held).1] at read
      cases read
      exact isUsable_atAnyDepth l.name_ne_nil
    · rw [if_neg means, List.append_nil] at shape
      exact absurd ⟨part, shape.symm⟩ l.not_contents_suffix

section Rule

variable (rule : Gitignore.isRule l.text = true)
include rule

theorem patterns_text :
    Gitignore.patterns l.text = [Gitignore.pattern l.text, Gitignore.gitDirectory] := by
  simp [Gitignore.patterns, Text.lines_of_not_mem l.newline_not_mem_text, trimmed, rule]

/-- A set can be made of a line. -/
theorem ofPatterns_text :
    ofPatterns (Gitignore.patterns l.text) = .ok (globs (Gitignore.patterns l.text)) := by
  refine ofPatterns_eq_ok_iff.2 ⟨rfl, ?_⟩
  rw [l.patterns_text trimmed rule]
  intro pattern inside
  rcases List.mem_pair.1 inside with rfl | rfl
  · exact l.isUsable_pattern trimmed
  · exact Gitignore.isUsable_gitDirectory

theorem excludesFile_iff {path : Text} :
    (globs (Gitignore.patterns l.text)).excludesFile path = true ↔
      ".git".toList ∈ (path.splitOn '/').dropLast ∨ l.glob.matches path = true := by
  have files : (globs (Gitignore.patterns l.text)).files =
      [l.glob, ⟨atAnyDepth ".git".toList ++ [.trailing]⟩] := by
    rw [l.patterns_text trimmed rule, globs]
    simp [l.fileGlob?_pattern trimmed, Gitignore.fileGlob?_gitDirectory]
  rw [excludesFile, files, List.any_cons, List.any_cons, List.any_nil, Bool.or_false,
    Bool.or_eq_true, Gitignore.matches_gitDirectory_iff, or_comm]

end Rule

end Trimmed

end LiteralLine

/-! ## Files that a line excludes -/

/-- **What a line without wildcards excludes.**  Beside what is in `.git` directories, it excludes the
paths that have its components one behind the other before their last one, if it ends in a slash or
holds no dot, and else the paths that end in them; the line `..` alone excludes nothing. Components
count as wholes, and the depth at which they stand does not matter. -/
theorem excludesFile_literalLine (l : LiteralLine) (rule : Gitignore.isRule l.text = true)
    (trimmed : Text.trim l.text = l.text) :
    ∃ excludes, ofPatterns (Gitignore.patterns l.text) = .ok excludes ∧
      ∀ path, excludes.excludesFile path = true ↔
        ".git".toList ∈ (path.splitOn '/').dropLast ∨
        (0 < l.slashes ∨ '.' ∉ l.text) ∧ l.components <:+: (path.splitOn '/').dropLast ∨
        ('.' ∈ l.text ∧ l.slashes = 0) ∧ l.components <:+ path.splitOn '/' ∧
          l.components ≠ ["..".toList] := by
  refine ⟨_, l.ofPatterns_text trimmed rule, fun path => ?_⟩
  have names : ¬ l.MeansDirectory ↔ '.' ∈ l.text ∧ l.slashes = 0 := by
    rw [LiteralLine.MeansDirectory, not_or, not_not, Nat.not_lt, Nat.le_zero, and_comm]
  rw [l.excludesFile_iff trimmed rule, l.matches_glob_iff, names]
  exact Iff.rfl

/-- A directory of components with a dot, written with a slash before it. -/
def nestedLine : LiteralLine where
  anchored := true
  components := ["lib".toList, "a.b".toList]
  slashes := 0
  nonempty := by decide
  solid := by decide
  plain := by simp

theorem excludesFile_literalLine_nested :
    Gitignore.isRule nestedLine.text = true ∧ Text.trim nestedLine.text = nestedLine.text ∧
    ∃ excludes, ofPatterns (Gitignore.patterns nestedLine.text) = .ok excludes ∧
      excludes.excludesFile "src/lib/a.b".toList = true ∧
      excludes.excludesFile "src/lib/a.b/c".toList = false ∧
      excludes.excludesFile "mylib/a.b".toList = false := by
  have rule : Gitignore.isRule nestedLine.text = true := by decide
  have trimmed : Text.trim nestedLine.text = nestedLine.text := by decide
  obtain ⟨excludes, compiled, excluded⟩ := excludesFile_literalLine nestedLine rule trimmed
  refine ⟨rule, trimmed, excludes, compiled, (excluded _).2 ?_, ?_, ?_⟩
  · decide
  · rw [Bool.eq_false_iff, Ne, excluded]
    decide
  · rw [Bool.eq_false_iff, Ne, excluded]
    decide

def parentLine : LiteralLine where
  anchored := false
  components := ["..".toList]
  slashes := 0
  nonempty := by decide
  solid := by decide
  plain := by simp

/-- A path that ends in `..` ends in the component of the line `..`, and is not excluded by it. -/
theorem not_excludesFile_parent :
    parentLine.text = "..".toList ∧
    Gitignore.isRule parentLine.text = true ∧ Text.trim parentLine.text = parentLine.text ∧
    '.' ∈ parentLine.text ∧ parentLine.slashes = 0 ∧
    parentLine.components <:+ "..".toList.splitOn '/' ∧
    ∃ excludes, ofPatterns (Gitignore.patterns parentLine.text) = .ok excludes ∧
      excludes.excludesFile "..".toList = false := by
  have rule : Gitignore.isRule parentLine.text = true := by decide
  have trimmed : Text.trim parentLine.text = parentLine.text := by decide
  refine ⟨rfl, rule, trimmed, by decide, rfl, by decide, _,
    parentLine.ofPatterns_text trimmed rule, ?_⟩
  rw [Bool.eq_false_iff, Ne, parentLine.excludesFile_iff trimmed rule, parentLine.matches_glob_iff]
  decide

end PromptDoc
