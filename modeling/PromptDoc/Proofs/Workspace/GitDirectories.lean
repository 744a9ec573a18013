/-
# PromptDoc.Proofs.Workspace.GitDirectories — what is in a `.git` directory is never listed

The patterns of a `.gitignore` end in `**/.git/**`, whatever its lines are. It is a glob
whether or not the others are, patterns only ever leave files out, and it leaves out every
path that has `.git` before its last component (`excludesFile_patterns`) and every directory
of that name (`excludesDirectory_patterns`). So no line can bring such a file back, and the
walk does not enter such a directory: what is kept there is nothing, whatever it holds
(`listed_outside_git`).

Components are those of the listed path. A name with a backslash in it counts as several,
since it is listed, and matched, with a slash.
-/
import PromptDoc.Proofs.Exclude.LiteralLines
import PromptDoc.Proofs.Workspace.Subtraction

namespace PromptDoc

set_option autoImplicit false

open ExcludeSet

namespace Listing

/-! ## The walk -/

mutual

/-- What is kept is not excluded. -/
theorem excludesFile_of_mem_kept {excludes : ExcludeSet} {path p : Text} (t : FileTree)
    (inside : p ∈ kept excludes path t) : excludes.excludesFile p = false := by
  cases t with
  | file contents =>
      rw [kept] at inside
      split at inside
      · cases inside
      · rename_i free
        rw [List.mem_singleton.1 inside]
        simpa using free
  | link target => cases inside
  | directory entries =>
      rw [kept] at inside
      split at inside
      · cases inside
      · exact excludesFile_of_mem_keptIn entries inside

theorem excludesFile_of_mem_keptIn {excludes : ExcludeSet} {directory p : Text}
    (entries : List (Text × FileTree)) (inside : p ∈ keptIn excludes directory entries) :
    excludes.excludesFile p = false := by
  match entries with
  | [] => cases inside
  | (name, t) :: entries =>
      rw [keptIn, List.mem_append] at inside
      rcases inside with here | later
      · exact excludesFile_of_mem_kept t here
      · exact excludesFile_of_mem_keptIn entries later

end

/-- What is listed is not excluded by the patterns that hold in the root. -/
theorem excludesFile_of_mem_listed {d : Disk} {root path : Text} {otherwise files : List Text}
    (ok : listed d root otherwise = .ok files) (inside : path ∈ files) :
    (globs (patterns d root otherwise)).excludesFile path = false := by
  rw [listed, ofRoot] at ok
  split at ok
  · cases compiled : ofPatterns (patterns d root otherwise) with
    | error defect => simp [compiled] at ok
    | ok excludes =>
        simp only [compiled, Except.ok.injEq] at ok
        subst ok
        obtain ⟨rfl, -⟩ := ofPatterns_eq_ok_iff.1 compiled
        exact excludesFile_of_mem_keptIn _ (List.mem_mergeSort.1 inside)
  · cases ok

/-- **What is in a `.git` directory is never listed.**  Whatever the `.gitignore` of a root says, no
path that is listed has `.git` before its last component, at any depth; every directory of that name
is excluded, and the walk keeps nothing of it, whatever it holds. -/
theorem listed_outside_git {d : Disk} {root text : Text}
    (read : d.readText (Path.join root Gitignore.fileName) = .ok text) (otherwise : List Text) :
    (∀ files, listed d root otherwise = .ok files → ∀ path ∈ files,
      ".git".toList ∉ (path.splitOn '/').dropLast) ∧
    ∀ excludes, ofPatterns (Gitignore.patterns text) = .ok excludes → ∀ directory,
      (directory.splitOn '/').getLast? = some ".git".toList →
        excludes.excludesDirectory directory = true ∧
          ∀ entries, kept excludes directory (.directory entries) = [] := by
  have rules : patterns d root otherwise = Gitignore.patterns text := patterns_of_ok _ read
  constructor
  · intro files ok path inside component
    have spared := excludesFile_of_mem_listed ok inside
    rw [rules, Gitignore.excludesFile_patterns text component] at spared
    cases spared
  · intro excludes compiled directory last
    obtain ⟨rfl, -⟩ := ofPatterns_eq_ok_iff.1 compiled
    have excluded := Gitignore.excludesDirectory_patterns text last
    refine ⟨excluded, fun entries => ?_⟩
    rw [kept, if_pos excluded]

/-- Lines that are to bring `.git` back, one that is no glob, and one that takes a file away. -/
def readmitting : Text := "!.git/\n!**/.git/**\n# .git\n[\n/b.txt\n".toList

/-- A repository with another in a directory of it, a file by the name of `.git`, and two others. -/
def nestedRepositories : List (Text × FileTree) :=
  [(".git".toList, .directory [("config".toList, .file [])]),
    ("lib".toList, .directory
      [("a.txt".toList, .file []),
        (".git".toList, .directory [("hooks".toList, .directory [("run".toList, .file [])])])]),
    ("tree".toList, .directory [(".git".toList, .file [])]),
    ("b.txt".toList, .file [])]

theorem listed_outside_git_nested :
    let d := disk readmitting nestedRepositories
    d.readText (Path.join "/".toList Gitignore.fileName) = .ok readmitting ∧
    listed d "/".toList [] =
      .ok [Gitignore.fileName, "lib/a.txt".toList, "tree/.git".toList] ∧
    ∀ path ∈ [Gitignore.fileName, "lib/a.txt".toList, "tree/.git".toList],
      ".git".toList ∉ (path.splitOn '/').dropLast := by
  intro d
  have files : listed d "/".toList [] =
      .ok [Gitignore.fileName, "lib/a.txt".toList, "tree/.git".toList] :=
    listed_disk nestedRepositories (by decide +kernel) (by decide +kernel)
      (by decide +kernel)
  have rules : d.readText (Path.join "/".toList Gitignore.fileName) = .ok readmitting :=
    (ignoring_disk nestedRepositories).text
  exact ⟨rules, files, (listed_outside_git rules []).1 _ files⟩

end Listing

end PromptDoc
