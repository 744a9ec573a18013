/-
# PromptDoc.Proofs.Workspace.Subtraction — what a line of a `.gitignore` takes away

A `.gitignore` in two parts leaves out what either part leaves out.  Of a set of
patterns that is plain, since a set asks its patterns one by one
(`PromptDoc.Proofs.Exclude.Members`), and so a location is eligible under both parts
just if it is under each (`Eligible.join_iff`).

A listing shows paths, though, and two locations may have one path: a name may hold a
backslash, which is written as a slash, or bytes that are no UTF-8, all of which are shown
alike.  Then one of them might be listed with the one part and the other with the other
part.  What saves the listing is that the files themselves are asked by path.  If a
directory is only ever left out with all that is in it, the directories on the way make no
difference (`Prunes.entered`); and the patterns for which they do (`ExcludeSet.IsSlashed`)
enter no directory at all, so that what they list has none on the way
(`Eligible.eq_singleton`).  In both cases one of the two locations is eligible with either
part (`Eligible.transfer`).

Lines without a glob are no patterns, and the place and number of a line do not matter
(`Gitignore.rules`).  The one line that has a say in what becomes of the others is one
that no set can hold: with it nothing is listed at all (`listed_braced`).
-/
import PromptDoc.Proofs.Exclude.Members
import PromptDoc.Proofs.Workspace.Eligible

namespace PromptDoc

set_option autoImplicit false

/-! ## The lines that have a say -/

namespace Gitignore

/-- The lines of a `.gitignore` that say what to ignore, and say it with a glob. -/
def rules (t : Text) : List Text :=
  (t.lines.map Text.trim).filter fun line =>
    isRule line && (ExcludeSet.fileGlob? (pattern line)).isSome

theorem rules_append (a b : Text) : rules (a ++ '\n' :: b) = rules a ++ rules b := by
  simp only [rules, Text.lines_append_newline, List.map_append, List.filter_append]

variable {holds : Text → Prop}

/-- What holds of every pattern without a glob is asked of the rules only. -/
theorem forall_mem_patterns_iff (skips : ∀ p, ExcludeSet.fileGlob? p = none → holds p) (t : Text) :
    (∀ p ∈ patterns t, holds p) ↔ (∀ rule ∈ rules t, holds (pattern rule)) ∧ holds gitDirectory := by
  rw [patterns, List.forall_mem_append, List.forall_mem_map, List.forall_mem_singleton]
  refine and_congr_left fun _ => ?_
  simp only [rules, List.mem_filter, Bool.and_eq_true]
  constructor
  · exact fun all line ⟨listed, rule, _⟩ => all line ⟨listed, rule⟩
  · rintro all line ⟨listed, rule⟩
    cases glob : ExcludeSet.fileGlob? (pattern line) with
    | none => exact skips _ glob
    | some g => exact all line ⟨listed, rule, by rw [glob, Option.isSome_some]⟩

theorem forall_mem_patterns_append (skips : ∀ p, ExcludeSet.fileGlob? p = none → holds p)
    (a b : Text) : (∀ p ∈ patterns (a ++ '\n' :: b), holds p) ↔
      (∀ p ∈ patterns a, holds p) ∧ ∀ p ∈ patterns b, holds p := by
  simp only [forall_mem_patterns_iff skips, rules_append, List.forall_mem_append]
  tauto

theorem forall_mem_patterns_congr (skips : ∀ p, ExcludeSet.fileGlob? p = none → holds p)
    {a b : Text} (same : ∀ rule, rule ∈ rules a ↔ rule ∈ rules b) :
    (∀ p ∈ patterns a, holds p) ↔ ∀ p ∈ patterns b, holds p := by
  simp only [forall_mem_patterns_iff skips, same]

end Gitignore

/-! ## Trees that hold the same files -/

namespace FileTree

mutual

/-- A tree without what its files contain. -/
def outline : FileTree → FileTree
  | .file _ => .file []
  | .link target => .link target
  | .directory entries => .directory (outlineIn entries)

def outlineIn : List (Text × FileTree) → List (Text × FileTree)
  | [] => []
  | (name, t) :: entries => (name, outline t) :: outlineIn entries

end

end FileTree

namespace Listing

open FileTree ExcludeSet

mutual

/-- What files contain makes no difference to what is kept. -/
theorem kept_outline (excludes : ExcludeSet) (path : Text) (t : FileTree) :
    kept excludes path t.outline = kept excludes path t := by
  cases t with
  | file contents => rfl
  | link target => rfl
  | directory entries => rw [outline, kept, kept, keptIn_outline]

theorem keptIn_outline (excludes : ExcludeSet) (directory : Text)
    (entries : List (Text × FileTree)) :
    keptIn excludes directory (outlineIn entries) = keptIn excludes directory entries := by
  match entries with
  | [] => rfl
  | (name, t) :: entries => rw [outlineIn, keptIn, keptIn, kept_outline, keptIn_outline]

end

/-! ## Two parts of a pattern list -/

variable {root : FileTree} {r r' : Location} {excludes joined first second : ExcludeSet}

/-- Sets that leave out the same. -/
structure Agree (first second : ExcludeSet) : Prop where
  file : ∀ path, first.excludesFile path = second.excludesFile path
  directory : ∀ path, first.excludesDirectory path = second.excludesDirectory path

mutual

theorem Agree.kept (agree : Agree first second) (path : Text) (t : FileTree) :
    kept first path t = kept second path t := by
  cases t with
  | file contents =>
      rw [Listing.kept, Listing.kept, agree.file]
  | link target => rfl
  | directory entries =>
      rw [Listing.kept, Listing.kept, agree.directory, agree.keptIn]

theorem Agree.keptIn (agree : Agree first second) (directory : Text)
    (entries : List (Text × FileTree)) :
    keptIn first directory entries = keptIn second directory entries := by
  match entries with
  | [] => rfl
  | (name, t) :: entries => rw [Listing.keptIn, Listing.keptIn, agree.kept, agree.keptIn]

end

/-- A set that leaves out what either of two sets leaves out. -/
structure Joins (joined first second : ExcludeSet) : Prop where
  file : ∀ path, joined.excludesFile path = false ↔
    first.excludesFile path = false ∧ second.excludesFile path = false
  directory : ∀ path, joined.excludesDirectory path = false ↔
    first.excludesDirectory path = false ∧ second.excludesDirectory path = false

theorem Eligible.join_iff (joins : Joins joined first second) :
    Eligible joined root r ↔ Eligible first root r ∧ Eligible second root r := by
  constructor
  · rintro ⟨file, kept, entered⟩
    obtain ⟨keptFirst, keptSecond⟩ := (joins.file _).1 kept
    exact ⟨⟨file, keptFirst, fun front cut nonempty strict =>
        ((joins.directory _).1 (entered front cut nonempty strict)).1⟩,
      ⟨file, keptSecond, fun front cut nonempty strict =>
        ((joins.directory _).1 (entered front cut nonempty strict)).2⟩⟩
  · rintro ⟨⟨file, keptFirst, enteredFirst⟩, ⟨-, keptSecond, enteredSecond⟩⟩
    exact ⟨file, (joins.file _).2 ⟨keptFirst, keptSecond⟩, fun front cut nonempty strict =>
      (joins.directory _).2
        ⟨enteredFirst front cut nonempty strict, enteredSecond front cut nonempty strict⟩⟩

/-- Where a directory is left out only with all that is in it, what is kept has been entered. -/
theorem Prunes.entered (prunes : Prunes excludes)
    (kept : excludes.excludesFile (slashed r) = false) : Entered excludes r := by
  rintro front ⟨back, rfl⟩ nonempty strict
  have below : back ≠ [] := by
    rintro rfl
    exact strict (List.append_nil front).symm
  rw [slashed_append nonempty below] at kept
  by_contra excluded
  have out := prunes (slashed front) (slashed back) (by simpa using excluded)
  cases out.symm.trans kept

/-- With a pattern of which every directory is one, only what stands in the root is listed. -/
theorem Eligible.eq_singleton {patterns : List Text} {pattern : Text} (inside : pattern ∈ patterns)
    (slashed : IsSlashed pattern) {entries : List (Text × FileTree)}
    (eligible : Eligible (globs patterns) (.directory entries) r) : ∃ name, r = [name] := by
  obtain ⟨⟨contents, file⟩, -, entered⟩ := eligible
  match r with
  | [] => cases file
  | [name] => exact ⟨name, rfl⟩
  | name :: second :: rest =>
      obtain ⟨directory, -, compiled, -, all, -⟩ := globs_of_isSlashed slashed
      have free := entered [name] ⟨second :: rest, rfl⟩ (by simp) (by simp)
      have spared := excludesDirectory_globs.1 free pattern inside directory compiled
      cases (all _).symm.trans spared

/-- Of two locations with one path, one eligible with one set and one with another, one is eligible
with both. -/
theorem Eligible.transfer {patterns : List Text} {entries : List (Text × FileTree)}
    (compiled : ofPatterns patterns = .ok first)
    (here : Eligible first (.directory entries) r) (there : Eligible second (.directory entries) r')
    (same : slashed r = slashed r') :
    Eligible second (.directory entries) r ∨ Eligible first (.directory entries) r' := by
  by_cases regular : ∀ p ∈ patterns, ¬ IsSlashed p
  · right
    have prunes : Prunes first := fun directory rest =>
      excludesFile_of_excludesDirectory regular compiled rest
    have kept : first.excludesFile (slashed r') = false := same ▸ here.kept
    exact ⟨there.file, kept, prunes.entered kept⟩
  · left
    simp only [not_forall, not_not] at regular
    obtain ⟨p, inside, slashed⟩ := regular
    obtain rfl := (ofPatterns_eq_ok_iff.1 compiled).1
    obtain ⟨name, rfl⟩ := here.eq_singleton inside slashed
    exact ⟨here.file, same ▸ there.kept, entered_singleton name⟩

/-! ## What a workspace lists -/

/-- The files that a workspace lists, or why it lists none. -/
def listed (d : Disk) (root : Text) (otherwise : List Text) : Except CommandError (List Text) :=
  (ofRoot d root (patterns d root otherwise)).files

/-- A disk with a directory for its root whose `.gitignore` is a given text.  The entries are given
too, but not what the files among them contain. -/
structure Ignoring (d : Disk) (root : Text) (entries : List (Text × FileTree)) (text : Text) :
    Prop where
  node : ∃ held, d.node root = .ok (.directory held) ∧ outlineIn held = outlineIn entries
  text : d.readText (Path.join root Gitignore.fileName) = .ok text

variable {d other : Disk} {root path a b t : Text} {entries : List (Text × FileTree)}
  {otherwise files : List Text}

theorem Ignoring.listed_eq (ignoring : Ignoring d root entries t) (otherwise : List Text) :
    listed d root otherwise =
      match ofPatterns (Gitignore.patterns t) with
      | .ok excludes => .ok (Text.sort (keptIn excludes [] entries))
      | .error defect => .error (.excludesTooDeep defect) := by
  obtain ⟨⟨held, node, same⟩, text⟩ := ignoring
  have kept : ∀ excludes, keptIn excludes [] held = keptIn excludes [] entries := by
    intro excludes
    rw [← keptIn_outline, same, keptIn_outline]
  cases compiled : ofPatterns (Gitignore.patterns t) <;>
    simp only [listed, patterns, text, ofRoot, node, compiled, kept]

theorem Ignoring.listed_eq_ok_iff (ignoring : Ignoring d root entries t) :
    listed d root otherwise = .ok files ↔ (∀ p ∈ Gitignore.patterns t, IsUsable p) ∧
      files = Text.sort (keptIn (globs (Gitignore.patterns t)) [] entries) := by
  rw [ignoring.listed_eq]
  cases compiled : ofPatterns (Gitignore.patterns t) with
  | ok excludes =>
      obtain ⟨rfl, usable⟩ := ofPatterns_eq_ok_iff.1 compiled
      rw [Except.ok.injEq, and_iff_right usable, eq_comm]
  | error defect =>
      have unusable : ¬ ∀ p ∈ Gitignore.patterns t, IsUsable p := by
        intro usable
        cases compiled.symm.trans (ofPatterns_eq_ok_iff.2 ⟨rfl, usable⟩)
      simp [unusable]

theorem Ignoring.exists_listed_iff (ignoring : Ignoring d root entries t) :
    (∃ files, listed d root otherwise = .ok files) ↔ ∀ p ∈ Gitignore.patterns t, IsUsable p := by
  simp only [ignoring.listed_eq_ok_iff, exists_and_left, exists_eq, and_true]

theorem mem_sort_keptIn (wellNamed : (FileTree.directory entries).WellNamed) :
    path ∈ Text.sort (keptIn excludes [] entries) ↔
      ∃ r, Eligible excludes (.directory entries) r ∧ slashed r = path := by
  obtain ⟨-, routes, -, mem, perm⟩ := exact_sort_keptIn excludes wellNamed
  simp only [perm.mem_iff, List.mem_map, mem]

/-! ## A `.gitignore` in two parts -/

theorem joins_patterns (a b : Text) : Joins (globs (Gitignore.patterns (a ++ '\n' :: b)))
    (globs (Gitignore.patterns a)) (globs (Gitignore.patterns b)) where
  file path := by
    simp only [excludesFile_globs]
    exact Gitignore.forall_mem_patterns_append (fun _ => sparesFile_of_skipped) a b
  directory path := by
    simp only [excludesDirectory_globs]
    exact Gitignore.forall_mem_patterns_append (fun _ => sparesDirectory_of_skipped) a b

theorem listed_of_congr (same : ∀ rule, rule ∈ Gitignore.rules a ↔ rule ∈ Gitignore.rules b)
    (first : Ignoring d root entries a) (second : Ignoring other root entries b) :
    (listed d root otherwise).toOption = (listed other root otherwise).toOption := by
  have agree : Agree (globs (Gitignore.patterns a)) (globs (Gitignore.patterns b)) := by
    constructor
    · intro path
      refine Bool.eq_iff_iff.2 (not_iff_not.1 ?_)
      simp only [Bool.not_eq_true, excludesFile_globs]
      exact Gitignore.forall_mem_patterns_congr (fun _ => sparesFile_of_skipped) same
    · intro path
      refine Bool.eq_iff_iff.2 (not_iff_not.1 ?_)
      simp only [Bool.not_eq_true, excludesDirectory_globs]
      exact Gitignore.forall_mem_patterns_congr (fun _ => sparesDirectory_of_skipped) same
  have usable : (∀ p ∈ Gitignore.patterns a, IsUsable p) ↔ ∀ p ∈ Gitignore.patterns b, IsUsable p :=
    Gitignore.forall_mem_patterns_congr (fun _ => isUsable_of_skipped) same
  ext files
  simp only [toOption_eq_some_iff, first.listed_eq_ok_iff, second.listed_eq_ok_iff, usable,
    agree.keptIn]

/-- **Rules only ever take files away, and each for itself.**  With a `.gitignore` in two parts those
files are listed that are listed with each part alone.  The lines that have a say are those that are
neither blank nor a comment nor an exception and that are globs; which of them there are decides what
is listed, in whatever order and however often they stand there.  With a line among them that no set
of patterns can hold, nothing is listed. -/
theorem mem_listed_append (wellNamed : (FileTree.directory entries).WellNamed)
    {joined first second : Disk} (both : Ignoring joined root entries (a ++ '\n' :: b))
    (left : Ignoring first root entries a) (right : Ignoring second root entries b)
    (otherwise : List Text) :
    ((∃ files, listed joined root otherwise = .ok files) ↔
      (∃ files, listed first root otherwise = .ok files) ∧
        ∃ files, listed second root otherwise = .ok files) ∧
    (∀ files firsts seconds, listed joined root otherwise = .ok files →
      listed first root otherwise = .ok firsts → listed second root otherwise = .ok seconds →
        ∀ path, path ∈ files ↔ path ∈ firsts ∧ path ∈ seconds) ∧
    (∀ (other : Disk) (c : Text), Ignoring other root entries c →
      (∀ rule, rule ∈ Gitignore.rules c ↔ rule ∈ Gitignore.rules a) →
        (listed other root otherwise).toOption = (listed first root otherwise).toOption) ∧
    ∀ rule ∈ Gitignore.rules a, ¬ IsUsable (Gitignore.pattern rule) →
      ∃ defect, listed first root otherwise = .error (.excludesTooDeep defect) := by
  refine ⟨?_, ?_, ?_, ?_⟩
  · simp only [both.exists_listed_iff, left.exists_listed_iff, right.exists_listed_iff]
    exact Gitignore.forall_mem_patterns_append (fun _ => isUsable_of_skipped) a b
  · intro files firsts seconds all some_ others path
    obtain ⟨-, rfl⟩ := both.listed_eq_ok_iff.1 all
    obtain ⟨usable, rfl⟩ := left.listed_eq_ok_iff.1 some_
    obtain ⟨-, rfl⟩ := right.listed_eq_ok_iff.1 others
    simp only [mem_sort_keptIn wellNamed, Eligible.join_iff (joins_patterns a b)]
    constructor
    · rintro ⟨r, ⟨here, there⟩, rfl⟩
      exact ⟨⟨r, here, rfl⟩, ⟨r, there, rfl⟩⟩
    · rintro ⟨⟨r, here, rfl⟩, ⟨r', there, same⟩⟩
      have compiled := ofPatterns_eq_ok_iff.2 ⟨rfl, usable⟩
      rcases here.transfer compiled there same.symm with also | also
      · exact ⟨r, ⟨here, also⟩, rfl⟩
      · exact ⟨r', ⟨also, there⟩, same⟩
  · exact fun other c ignoring same => listed_of_congr same ignoring left
  · intro rule inside unusable
    rw [left.listed_eq]
    cases compiled : ofPatterns (Gitignore.patterns a) with
    | error defect => exact ⟨defect, rfl⟩
    | ok excludes =>
        have usable := (ofPatterns_eq_ok_iff.1 compiled).2
        rw [Gitignore.forall_mem_patterns_iff fun _ => isUsable_of_skipped] at usable
        exact absurd (usable.1 rule inside) unusable

def disk (text : Text) (others : List (Text × FileTree)) : Disk where
  tree := .directory ((Gitignore.fileName, .file (Text.encode text)) :: others)

theorem ignoring_disk {text : Text} (others : List (Text × FileTree)) :
    Ignoring (disk text others) "/".toList ((Gitignore.fileName, .file []) :: others) text where
  node := ⟨(Gitignore.fileName, .file (Text.encode text)) :: others, rfl, rfl⟩
  text := by
    have held : (disk text others).read (Path.join "/".toList Gitignore.fileName) =
        .ok (Text.encode text) := rfl
    simp only [Disk.readText, held, bind, Except.bind, Text.decode?_encode, pure, Except.pure]

/-- What such a disk lists, the files of its tree being kept in order. -/
theorem listed_disk {text : Text} {paths : List Text} (others : List (Text × FileTree))
    (usable : (globs (Gitignore.patterns text)).nestingDefect? = none)
    (kept : keptIn (globs (Gitignore.patterns text)) []
      ((Gitignore.fileName, .file []) :: others) = paths)
    (sorted : paths.Pairwise fun a b => Text.le a b) :
    listed (disk text others) "/".toList [] = .ok paths := by
  rw [(ignoring_disk others).listed_eq_ok_iff, kept, sort_of_sorted sorted]
  exact ⟨nestingDefect?_globs.1 usable, rfl⟩

def pair : List (Text × FileTree) :=
  [("a".toList, .directory [("r.txt".toList, .file [])]), ("b.txt".toList, .file [])]

theorem wellNamed_pair :
    (FileTree.directory ((Gitignore.fileName, .file []) :: pair)).WellNamed := by
  refine wellNamed_directory (by decide) (by decide) ?_
  simp only [pair, List.forall_mem_cons, List.not_mem_nil, false_imp_iff, implies_true, and_true]
  refine ⟨wellNamed_file _, ?_, wellNamed_file _⟩
  refine wellNamed_directory (by decide) (by decide) ?_
  simpa using wellNamed_file _

theorem listed_pair {text : Text} {paths : List Text}
    (usable : (globs (Gitignore.patterns text)).nestingDefect? = none)
    (kept : keptIn (globs (Gitignore.patterns text)) []
      ((Gitignore.fileName, .file []) :: pair) = paths)
    (sorted : paths.Pairwise fun a b => Text.le a b) :
    listed (disk text pair) "/".toList [] = .ok paths :=
  listed_disk pair usable kept sorted

/-- One part takes the directory away, and the other the file beside it. -/
theorem mem_listed_append_pair :
    listed (disk "a\nb.txt".toList pair) "/".toList [] = .ok [Gitignore.fileName] ∧
    listed (disk "a".toList pair) "/".toList [] = .ok [Gitignore.fileName, "b.txt".toList] ∧
    listed (disk "b.txt".toList pair) "/".toList [] = .ok [Gitignore.fileName, "a/r.txt".toList] ∧
    ∀ path, path ∈ [Gitignore.fileName] ↔
      path ∈ [Gitignore.fileName, "b.txt".toList] ∧
        path ∈ [Gitignore.fileName, "a/r.txt".toList] := by
  have both : listed (disk "a\nb.txt".toList pair) "/".toList [] = .ok [Gitignore.fileName] :=
    listed_pair (by decide +kernel) (by decide +kernel) (by decide +kernel)
  have left : listed (disk "a".toList pair) "/".toList [] =
      .ok [Gitignore.fileName, "b.txt".toList] :=
    listed_pair (by decide +kernel) (by decide +kernel) (by decide +kernel)
  have right : listed (disk "b.txt".toList pair) "/".toList [] =
      .ok [Gitignore.fileName, "a/r.txt".toList] :=
    listed_pair (by decide +kernel) (by decide +kernel) (by decide +kernel)
  refine ⟨both, left, right, ?_⟩
  exact (mem_listed_append wellNamed_pair (a := "a".toList) (b := "b.txt".toList)
    (ignoring_disk pair) (ignoring_disk pair) (ignoring_disk pair) []).2.1 _ _ _ both left right

set_option maxRecDepth 10000 in
/-- A line that no set of patterns can hold takes away every file, though it names none. -/
theorem listed_braced :
    ofPatterns [Gitignore.pattern (braced 300)] = .error (.inSet 0) ∧
      listed (disk "b.txt".toList pair) "/".toList [] =
        .ok [Gitignore.fileName, "a/r.txt".toList] ∧
      listed (disk ("b.txt".toList ++ '\n' :: braced 300) pair) "/".toList [] =
        .error (.excludesTooDeep (.inSet 0)) := by
  have alone : (globs [Gitignore.pattern (braced 300)]).nestingDefect? = some (.inSet 0) := by
    decide +kernel
  have beside : (globs (Gitignore.patterns ("b.txt".toList ++ '\n' :: braced 300))
      ).nestingDefect? = some (.inSet 0) := by decide +kernel
  refine ⟨by rw [ofPatterns, alone], ?_, ?_⟩
  · exact listed_pair (by decide +kernel) (by decide +kernel) (by decide +kernel)
  · rw [(ignoring_disk pair).listed_eq, ofPatterns, beside]

end Listing

end PromptDoc
