/-
# PromptDoc.Proofs.Workspace.Listing — a listing misses nothing

A listing does not enter excluded directories. `Listing.ofWholeTree` is the listing that
enters every directory and leaves files out only for themselves, and
`ofRoot_eq_ofWholeTree` says that the two are equal, warnings and refusals included:
what is in an excluded directory is excluded (`excludesFile_of_excludesDirectory`), and
whatever is found below a directory has its path in front (`exists_of_mem_foundIn`).

The patterns that must be left out (`ExcludeSet.IsSlashed`) do make a listing shorter
than that (`ofRoot_slashed`).
-/
import PromptDoc.Proofs.Exclude.Pruning
import PromptDoc.Proofs.FileTree.FileName
import PromptDoc.Workspace.Listing

namespace PromptDoc

set_option autoImplicit false

namespace Listing

/-! ## Every regular file -/

mutual

/-- The paths of the regular files of what stands at a path. -/
def found (path : Text) : FileTree → List Text
  | .file _ => [path]
  | .link _ => []
  | .directory entries => foundIn path entries

def foundIn (directory : Text) : List (Text × FileTree) → List Text
  | [] => []
  | (name, t) :: entries => found (below directory name) t ++ foundIn directory entries

end

/-- The listing of a root that enters every directory. -/
def ofWholeTree (d : Disk) (root : Text) (patterns : List Text) : Listing :=
  match d.node root with
  | .ok (.directory entries) =>
    { warnings := ExcludeSet.warnings patterns
      files := match ExcludeSet.ofPatterns patterns with
        | .ok excludes =>
          .ok (Text.sort ((foundIn [] entries).filter fun path => !excludes.excludesFile path))
        | .error defect => .error (.excludesTooDeep defect) }
  | _ => { files := .error (.notListable root) }

theorem component_eq_nil_iff {name : Text} : component name = [] ↔ name = [] := by
  simp [component, ExcludeSet.forwardSlashes, FileName.shown_eq_nil_iff]

theorem below_eq {directory : Text} (nonempty : directory ≠ []) (name : Text) :
    below directory name = directory ++ '/' :: component name := by
  cases directory with
  | nil => exact absurd rfl nonempty
  | cons c cs => simp [below]

theorem below_ne_nil {directory name : Text} (nonempty : directory ≠ [] ∨ name ≠ []) :
    below directory name ≠ [] := by
  cases directory with
  | nil => simpa [below, component_eq_nil_iff] using nonempty
  | cons c cs => simp [below]

mutual

/-- What is found at a path has that path in front. -/
theorem exists_of_mem_found {path p : Text} (t : FileTree) (nonempty : path ≠ [])
    (inside : p ∈ found path t) : p = path ∨ ∃ rest, p = path ++ '/' :: rest := by
  cases t with
  | file contents => exact Or.inl (List.mem_singleton.1 inside)
  | link target => cases inside
  | directory entries => exact Or.inr (exists_of_mem_foundIn entries nonempty inside)

theorem exists_of_mem_foundIn {directory p : Text} (entries : List (Text × FileTree))
    (nonempty : directory ≠ []) (inside : p ∈ foundIn directory entries) :
    ∃ rest, p = directory ++ '/' :: rest := by
  match entries with
  | [] => cases inside
  | (name, t) :: entries =>
      rw [foundIn, List.mem_append] at inside
      rcases inside with here | later
      · have front := exists_of_mem_found t (below_ne_nil (Or.inl nonempty)) here
        rw [below_eq nonempty] at front
        rcases front with rfl | ⟨rest, rfl⟩
        · exact ⟨_, rfl⟩
        · exact ⟨component name ++ '/' :: rest, by simp⟩
      · exact exists_of_mem_foundIn entries nonempty later

end

/-! ## What is listed -/

section
variable {d : Disk} {root : Text} (otherwise : List Text)

theorem patterns_of_ok {text : Text}
    (read : d.readText (Path.join root Gitignore.fileName) = .ok text) :
    patterns d root otherwise = Gitignore.patterns text := by
  rw [patterns, read]

theorem patterns_of_error {error : FileError}
    (unread : d.readText (Path.join root Gitignore.fileName) = .error error) :
    patterns d root otherwise = otherwise := by
  rw [patterns, unread]

end

section
variable {d : Disk} {root : Text} {patterns : List Text} {entries : List (Text × FileTree)}
  {excludes : ExcludeSet} (node : d.node root = .ok (.directory entries))
  (compiled : ExcludeSet.ofPatterns patterns = .ok excludes)
include node compiled

theorem files_ofRoot :
    (ofRoot d root patterns).files = .ok (Text.sort (keptIn excludes [] entries)) := by
  simp only [ofRoot, node, compiled]

theorem files_ofWholeTree :
    (ofWholeTree d root patterns).files =
      .ok (Text.sort ((foundIn [] entries).filter fun path => !excludes.excludesFile path)) := by
  simp only [ofWholeTree, node, compiled]

end

theorem sort_of_sorted {paths : List Text} (sorted : paths.Pairwise fun a b => Text.le a b) :
    Text.sort paths = paths :=
  List.mergeSort_of_pairwise sorted

/-! ## Pruning -/

/-- What is in an excluded directory is excluded. -/
def Prunes (excludes : ExcludeSet) : Prop :=
  ∀ directory rest, excludes.excludesDirectory directory = true →
    excludes.excludesFile (directory ++ '/' :: rest) = true

mutual

/-- What is kept of a node is what is found there and not excluded. -/
theorem kept_eq_filter {excludes : ExcludeSet} {path : Text} (t : FileTree)
    (prunes : Prunes excludes) (nonempty : path ≠ []) :
    kept excludes path t = (found path t).filter fun p => !excludes.excludesFile p := by
  cases t with
  | file contents =>
      rw [kept, found]
      cases excluded : excludes.excludesFile path <;> simp [excluded]
  | link target => rfl
  | directory entries =>
      rw [kept, found]
      split
      · rename_i pruned
        refine (List.filter_eq_nil_iff.2 fun p inside => ?_).symm
        obtain ⟨rest, rfl⟩ := exists_of_mem_foundIn entries nonempty inside
        simp [prunes path rest pruned]
      · exact keptIn_eq_filter entries prunes fun _ _ => Or.inl nonempty

theorem keptIn_eq_filter {excludes : ExcludeSet} {directory : Text}
    (entries : List (Text × FileTree)) (prunes : Prunes excludes)
    (named : ∀ entry ∈ entries, directory ≠ [] ∨ entry.1 ≠ []) :
    keptIn excludes directory entries =
      (foundIn directory entries).filter fun p => !excludes.excludesFile p := by
  match entries with
  | [] => rfl
  | (name, t) :: entries =>
      have here := kept_eq_filter t prunes (below_ne_nil (named (name, t) List.mem_cons_self))
      have later := keptIn_eq_filter entries prunes fun entry inside =>
        named entry (List.mem_cons_of_mem _ inside)
      rw [keptIn, foundIn, List.filter_append, here, later]

end

/-- **A listing misses nothing.**  If no pattern is `**/` several times over with `/**` behind it, what
is in an excluded directory is excluded for itself, and the listing of a root whose entries have
names is the listing that enters every directory. -/
theorem ofRoot_eq_ofWholeTree {patterns : List Text}
    (regular : ∀ p ∈ patterns, ¬ ExcludeSet.IsSlashed p) :
    (∀ excludes, ExcludeSet.ofPatterns patterns = .ok excludes → ∀ directory rest,
      excludes.excludesDirectory directory = true →
        excludes.excludesFile (directory ++ '/' :: rest) = true) ∧
    ∀ (d : Disk) (root : Text),
      (∀ entries, d.node root = .ok (.directory entries) → ∀ entry ∈ entries, entry.1 ≠ []) →
        ofRoot d root patterns = ofWholeTree d root patterns := by
  have prunes : ∀ excludes, ExcludeSet.ofPatterns patterns = .ok excludes → Prunes excludes :=
    fun excludes compiled directory rest =>
      ExcludeSet.excludesFile_of_excludesDirectory regular compiled rest
  refine ⟨prunes, fun d root named => ?_⟩
  unfold ofRoot ofWholeTree
  cases node : d.node root with
  | error e => rfl
  | ok t =>
      cases t with
      | directory entries =>
          cases compiled : ExcludeSet.ofPatterns patterns with
          | error defect => rfl
          | ok excludes =>
              have same : keptIn excludes [] entries = _ :=
                keptIn_eq_filter entries (prunes excludes compiled) fun entry inside =>
                  Or.inr (named entries node entry inside)
              simp only [same]
      | _ => rfl

def nested : Disk where
  tree := .directory
    [("a".toList, .directory [("r.txt".toList, .file [])]), ("b.txt".toList, .file [])]

/-- Patterns of every kind: of the contents of directories, with classes, groups and repeated stars,
and one that is a file. -/
def mixed : List Text :=
  ["**/node_modules/**".toList, "**/**".toList, "x/**/**".toList, "\x7ba,[b-d]*\x7d/**".toList,
    "b.txt".toList]

theorem ofRoot_nested :
    (∀ p ∈ mixed, ¬ ExcludeSet.IsSlashed p) ∧
      (∀ entries, nested.node "/".toList = .ok (.directory entries) →
        ∀ entry ∈ entries, entry.1 ≠ []) ∧
      ofRoot nested "/".toList mixed = ofWholeTree nested "/".toList mixed := by
  have regular : ∀ p ∈ mixed, ¬ ExcludeSet.IsSlashed p := by decide
  have node : nested.node "/".toList = .ok nested.tree := rfl
  have named : ∀ entries, nested.node "/".toList = .ok (.directory entries) →
      ∀ entry ∈ entries, entry.1 ≠ [] := by
    intro entries same
    cases node.symm.trans same
    decide
  exact ⟨regular, named, (ofRoot_eq_ofWholeTree regular).2 nested "/".toList named⟩

/-- With `**//**` the directory is not entered, though the file in it is not excluded. -/
theorem ofRoot_slashed :
    ExcludeSet.IsSlashed "**//**".toList ∧
    (ExcludeSet.ofPatterns ["**//**".toList]).toOption.map (fun excludes =>
      (excludes.excludesDirectory "a".toList, excludes.excludesFile "a/r.txt".toList)) =
        some (true, false) ∧
    (ofRoot nested "/".toList ["**//**".toList]).files.toOption = some ["b.txt".toList] ∧
    (ofWholeTree nested "/".toList ["**//**".toList]).files.toOption =
      some ["a/r.txt".toList, "b.txt".toList] := by
  have node : nested.node "/".toList = .ok nested.tree := rfl
  have compiled : ExcludeSet.ofPatterns ["**//**".toList] =
      .ok (ExcludeSet.globs ["**//**".toList]) :=
    ExcludeSet.ofPatterns_eq_ok_iff.2 ⟨rfl, ExcludeSet.nestingDefect?_globs.1 (by decide +kernel)⟩
  refine ⟨by decide, by decide +kernel, ?_, ?_⟩
  · rw [files_ofRoot node compiled, sort_of_sorted (by decide +kernel)]
    decide +kernel
  · rw [files_ofWholeTree node compiled, sort_of_sorted (by decide +kernel)]
    decide +kernel

end Listing

end PromptDoc
