/-
# PromptDoc.Proofs.Workspace.Eligible — a listing is exactly the eligible files

A location below a workspace root is `Eligible` if a regular file stands there, with real
directories only on the way to it, and neither the file nor a directory strictly between is
excluded, each by its own path with forward slashes (`slashed`). `ofRoot_eligible` says that a
listing is the sorted paths of the eligible locations, each location once, whatever their names
are.

The walk carries the path of where it is, and `Collects` says what it has gathered there: the
eligible locations of a part of the tree (`collects_kept`, by induction over the tree). The
parts that the entries of a directory make up have no location in common, since no two entries
have one name (`FileTree.WellNamed`).

Patterns of which one is nested too deep make no set, and then nothing is listed at all, whatever
is eligible (`ofRoot_braced`).
-/
import Mathlib.Data.Char
import Mathlib.Data.List.Lex
import Mathlib.Data.List.Nodup
import PromptDoc.Config.Basic
import PromptDoc.Proofs.FileTree.Tree
import PromptDoc.Proofs.Text.Blanks
import PromptDoc.Proofs.Workspace.Listing

namespace PromptDoc

set_option autoImplicit false

/-! ## Trees with names -/

namespace FileTree

/-- The entries of every directory have names, each its own. -/
def WellNamed (t : FileTree) : Prop :=
  ∀ route entries, t.get? route = some (.directory entries) →
    (∀ e ∈ entries, e.1 ≠ []) ∧ (entries.map Prod.fst).Nodup

variable {entries : List (Text × FileTree)} {name : Text} {t : FileTree}

theorem mem_of_child? (held : child? name entries = some t) : (name, t) ∈ entries := by
  obtain ⟨e, found, rfl⟩ := Option.map_eq_some_iff.1 held
  have same : e.1 = name := by simpa using List.find?_some found
  rw [← same]
  exact List.mem_of_find?_eq_some found

theorem child?_of_mem (distinct : (entries.map Prod.fst).Nodup) (inside : (name, t) ∈ entries) :
    child? name entries = some t := by
  induction entries with
  | nil => cases inside
  | cons first entries ih =>
      obtain ⟨fresh, distinct⟩ := List.nodup_cons.1 distinct
      rw [child?_cons]
      rcases List.mem_cons.1 inside with rfl | later
      · exact if_pos rfl
      · have listed : name ∈ entries.map Prod.fst := List.mem_map.2 ⟨_, later, rfl⟩
        have apart : first.1 ≠ name := fun same => fresh (same ▸ listed)
        rw [if_neg apart, ih distinct later]

/-- What holds of the entries of a directory, and of those of every directory in what it holds,
holds of all directories from there on. -/
theorem forall_directories {P : List (Text × FileTree) → Prop} (here : P entries)
    (inside : ∀ e ∈ entries, ∀ route es, e.2.get? route = some (.directory es) → P es) :
    ∀ route es, (FileTree.directory entries).get? route = some (.directory es) → P es := by
  rintro (_ | ⟨name, route⟩) es stands
  · cases stands
    exact here
  · rw [get?_directory, Option.bind_eq_some_iff] at stands
    obtain ⟨t, held, stands⟩ := stands
    exact inside _ (mem_of_child? held) route es stands

theorem forall_directories_of_leaf {P : List (Text × FileTree) → Prop} (leaf : t.entry ≠ .directory) :
    ∀ route es, t.get? route = some (.directory es) → P es := by
  intro route es stands
  cases t with
  | directory entries => exact absurd rfl leaf
  | file contents => cases route <;> cases stands
  | link target => cases route <;> cases stands

theorem wellNamed_file (contents : Bytes) : (FileTree.file contents).WellNamed :=
  forall_directories_of_leaf nofun

theorem wellNamed_link (target : Text) : (FileTree.link target).WellNamed :=
  forall_directories_of_leaf nofun

theorem wellNamed_directory (solid : ∀ e ∈ entries, e.1 ≠ [])
    (distinct : (entries.map Prod.fst).Nodup) (inside : ∀ e ∈ entries, e.2.WellNamed) :
    (FileTree.directory entries).WellNamed :=
  forall_directories ⟨solid, distinct⟩ inside

end FileTree

namespace Listing

open FileTree

/-! ## Eligible locations -/

/-- The path of a location, as it is listed. -/
def slashed (route : Location) : Text := ['/'].intercalate (route.map component)

/-- No directory strictly between the root and a location is excluded. -/
def Entered (excludes : ExcludeSet) (route : Location) : Prop :=
  ∀ front, front <+: route → front ≠ [] → front ≠ route →
    excludes.excludesDirectory (slashed front) = false

/-- A regular file stands at a location, and nothing keeps it from being listed. -/
structure Eligible (excludes : ExcludeSet) (root : FileTree) (route : Location) : Prop where
  file : ∃ contents, root.get? route = some (.file contents)
  kept : excludes.excludesFile (slashed route) = false
  entered : Entered excludes route

variable {excludes : ExcludeSet} {root : FileTree} {route : Location}

theorem slashed_singleton (name : Text) : slashed [name] = component name :=
  List.intercalate_singleton

theorem slashed_append {above below : Location} (nonempty : above ≠ []) (further : below ≠ []) :
    slashed (above ++ below) = slashed above ++ '/' :: slashed below := by
  rw [slashed, List.map_append, Text.intercalate_append (by simpa using nonempty)
    (by simpa using further), List.append_assoc]
  rfl

theorem slashed_concat (below : route ≠ []) (name : Text) :
    slashed (route ++ [name]) = slashed route ++ '/' :: component name := by
  rw [slashed_append below (List.cons_ne_nil _ _), slashed_singleton]

/-- The path of a location is what its bytes are shown as, with forward slashes: a slash between two
names is in no malformed stretch. -/
theorem slashed_eq_forwardSlashes (route : Location) :
    slashed route = ExcludeSet.forwardSlashes
      (Text.decodeLossy ([0x2F].intercalate (route.map FileName.bytes))) := by
  induction route with
  | nil => rfl
  | cons name route ih =>
      cases route with
      | nil => simp [slashed, component, FileName.shown]
      | cons next route =>
          have first : slashed (name :: next :: route) =
              component name ++ '/' :: slashed (next :: route) := by
            rw [← slashed_singleton]
            exact @slashed_append [name] _ (List.cons_ne_nil _ _) (List.cons_ne_nil _ _)
          have apart : Text.decodeLossy ([0x2F].intercalate
              ((name :: next :: route).map FileName.bytes)) = FileName.shown name ++
                '/' :: Text.decodeLossy ([0x2F].intercalate ((next :: route).map FileName.bytes)) := by
            rw [List.map_cons, List.map_cons, List.intercalate_cons_cons, List.append_assoc]
            exact Text.decodeLossy_append_byte_cons (by decide : '/'.toNat < 0x80) _ _
          rw [first, ih, apart]
          simp [component, ExcludeSet.forwardSlashes]

/-- The path that the walk makes for a name is that of its location. -/
theorem below_slashed (named : ∀ name ∈ route, name ≠ []) (name : Text) :
    below (slashed route) name = slashed (route ++ [name]) := by
  cases route with
  | nil => exact (slashed_singleton name).symm
  | cons first route =>
      have solid : component first ≠ [] :=
        mt component_eq_nil_iff.1 (named first List.mem_cons_self)
      have solid' : slashed (first :: route) ≠ [] := Text.intercalate_ne_nil solid _
      rw [below_eq solid', slashed_concat (List.cons_ne_nil _ _)]

/-- A location is entered if the directories above its own are, and its own too. -/
theorem entered_concat {name : Text} :
    Entered excludes (route ++ [name]) ↔
      Entered excludes route ∧
        (route ≠ [] → excludes.excludesDirectory (slashed route) = false) := by
  constructor
  · intro entered
    refine ⟨fun front cut nonempty strict => ?_, fun nonempty => ?_⟩
    · refine entered front (cut.trans (List.prefix_append _ _)) nonempty ?_
      rintro rfl
      have longer := cut.length_le
      rw [List.length_append, List.length_singleton] at longer
      omega
    · exact entered route (List.prefix_append _ _) nonempty (by simp)
  · rintro ⟨entered, here⟩ front cut nonempty strict
    rcases List.prefix_concat_iff.1 cut with same | cut
    · exact absurd same strict
    · by_cases same : front = route
      · exact same ▸ here (same ▸ nonempty)
      · exact entered front cut nonempty same

theorem entered_singleton (name : Text) : Entered excludes [name] := by
  refine (@entered_concat excludes [] name).2 ⟨fun front cut nonempty => ?_, by simp⟩
  exact absurd (List.prefix_nil.1 cut) nonempty

/-! ## What a walk gathers -/

/-- The paths are those of the eligible locations of some part of a tree, each location once. -/
def Collects (excludes : ExcludeSet) (root : FileTree) (part : Location → Prop)
    (paths : List Text) : Prop :=
  ∃ routes : List Location, routes.Nodup ∧
    (∀ r, r ∈ routes ↔ part r ∧ Eligible excludes root r) ∧ paths = routes.map slashed

variable {part other : Location → Prop} {paths more : List Text}

theorem collects_nil (none_ : ∀ r, part r → ¬ Eligible excludes root r) :
    Collects excludes root part [] :=
  ⟨[], List.nodup_nil, fun r => by simpa using none_ r, rfl⟩

theorem collects_singleton (eligible : Eligible excludes root route)
    (only : ∀ r, Eligible excludes root r → (part r ↔ r = route)) :
    Collects excludes root part [slashed route] := by
  refine ⟨[route], List.nodup_singleton _, fun r => ?_, rfl⟩
  rw [List.mem_singleton]
  constructor
  · rintro rfl
    exact ⟨(only _ eligible).2 rfl, eligible⟩
  · exact fun ⟨inside, here⟩ => (only r here).1 inside

theorem Collects.congr (collects : Collects excludes root part paths)
    (same : ∀ r, Eligible excludes root r → (other r ↔ part r)) :
    Collects excludes root other paths := by
  obtain ⟨routes, distinct, mem, rfl⟩ := collects
  exact ⟨routes, distinct, fun r => (mem r).trans (and_congr_left fun here => (same r here).symm),
    rfl⟩

/-- Two parts without a common location are gathered one after the other. -/
theorem Collects.append (collects : Collects excludes root part paths)
    (collects' : Collects excludes root other more) (apart : ∀ r, part r → ¬ other r) :
    Collects excludes root (fun r => part r ∨ other r) (paths ++ more) := by
  obtain ⟨routes, distinct, mem, rfl⟩ := collects
  obtain ⟨routes', distinct', mem', rfl⟩ := collects'
  refine ⟨routes ++ routes', ?_, fun r => ?_, List.map_append.symm⟩
  · refine List.nodup_append.2 ⟨distinct, distinct', fun r inside r' inside' same => ?_⟩
    subst same
    exact apart r ((mem r).1 inside).1 ((mem' r).1 inside').1
  · rw [List.mem_append, mem, mem', or_and_right]

/-- An eligible location below a directory is below one of its entries. -/
theorem Eligible.below_entry {entries : List (Text × FileTree)} {r : Location}
    (eligible : Eligible excludes root r) (stands : root.get? route = some (.directory entries)) :
    route <+: r ↔ ∃ e ∈ entries, route ++ [e.1] <+: r := by
  obtain ⟨contents, file⟩ := eligible.file
  constructor
  · rintro ⟨_ | ⟨name, rest⟩, rfl⟩
    · rw [List.append_nil, stands] at file
      cases file
    · rw [get?_append, stands, Option.bind_some, get?_directory, Option.bind_eq_some_iff] at file
      obtain ⟨t, held, -⟩ := file
      exact ⟨(name, t), mem_of_child? held, rest, by simp⟩
  · rintro ⟨e, -, front⟩
    exact (List.prefix_append _ _).trans front

/-- An eligible location below a node is at that node, if it is a file. -/
theorem Eligible.eq_of_file {contents : Bytes} {r : Location} (eligible : Eligible excludes root r)
    (stands : root.get? route = some (.file contents)) : route <+: r ↔ r = route := by
  constructor
  · rintro ⟨_ | ⟨name, rest⟩, rfl⟩
    · exact List.append_nil _
    · obtain ⟨_, file⟩ := eligible.file
      rw [get?_append, stands] at file
      cases file
  · rintro rfl
    exact List.prefix_rfl

mutual

/-- What is kept of what stands at a location are the eligible locations from there on. -/
theorem collects_kept {route : Location} (wellNamed : root.WellNamed) (t : FileTree)
    (stands : root.get? route = some t) (named : ∀ name ∈ route, name ≠ []) (below : route ≠ [])
    (entered : Entered excludes route) :
    Collects excludes root (route <+: ·) (kept excludes (slashed route) t) := by
  cases t with
  | file contents =>
      rw [kept]
      split
      · rename_i excluded
        refine collects_nil fun r front eligible => ?_
        obtain rfl := (eligible.eq_of_file stands).1 front
        cases eligible.kept.symm.trans excluded
      · rename_i free
        have eligible : Eligible excludes root route :=
          ⟨⟨contents, stands⟩, by simpa using free, entered⟩
        exact collects_singleton eligible fun r here => here.eq_of_file stands
  | link target =>
      refine collects_nil ?_
      rintro _ ⟨_ | ⟨name, rest⟩, rfl⟩ ⟨⟨contents, file⟩, -, -⟩
      · rw [List.append_nil, stands] at file
        cases file
      · rw [get?_append, stands] at file
        cases file
  | directory entries =>
      rw [kept]
      split
      · rename_i excluded
        refine collects_nil fun r front eligible => ?_
        have strict : route ≠ r := by
          rintro rfl
          obtain ⟨contents, file⟩ := eligible.file
          cases stands.symm.trans file
        cases (eligible.entered route front below strict).symm.trans excluded
      · rename_i free
        have inside := collects_keptIn wellNamed entries stands (fun _ => id)
          (wellNamed _ _ stands).2 named
          fun name => entered_concat.2 ⟨entered, fun _ => by simpa using free⟩
        exact inside.congr fun r eligible => eligible.below_entry stands

theorem collects_keptIn {route : Location} (wellNamed : root.WellNamed)
    (entries : List (Text × FileTree)) {all : List (Text × FileTree)}
    (stands : root.get? route = some (.directory all))
    (held : ∀ e ∈ entries, e ∈ all) (distinct : (entries.map Prod.fst).Nodup)
    (named : ∀ name ∈ route, name ≠ []) (entered : ∀ name, Entered excludes (route ++ [name])) :
    Collects excludes root (fun r => ∃ e ∈ entries, route ++ [e.1] <+: r)
      (keptIn excludes (slashed route) entries) := by
  match entries with
  | [] => exact collects_nil fun r inside => by simp at inside
  | (name, t) :: entries =>
      obtain ⟨fresh, distinct⟩ := List.nodup_cons.1 distinct
      obtain ⟨solid, single⟩ := wellNamed _ _ stands
      have inside : (name, t) ∈ all := held _ List.mem_cons_self
      have node : root.get? (route ++ [name]) = some t := by
        rw [get?_concat name stands, child?_of_mem single inside]
      have named' : ∀ n ∈ route ++ [name], n ≠ [] := by
        intro n member
        rcases List.mem_append.1 member with above | last
        · exact named n above
        · rw [List.mem_singleton.1 last]
          exact solid _ inside
      have here := collects_kept wellNamed t node named' (by simp) (entered name)
      have later := collects_keptIn wellNamed entries stands
        (fun e member => held e (List.mem_cons_of_mem _ member)) distinct named entered
      rw [keptIn, below_slashed named]
      refine (here.append later fun r front other => ?_).congr fun r _ => by simp
      -- A location below two entries is below one name, but no later entry has it.
      obtain ⟨e, member, front'⟩ := other
      have same : route ++ [name] = route ++ [e.1] :=
        (List.prefix_of_prefix_length_le front front' (by simp)).eq_of_length (by simp)
      have listed : e.1 ∈ entries.map Prod.fst := List.mem_map_of_mem member
      exact fresh ((show name = e.1 by simpa using same) ▸ listed)

end

/-! ## The listing -/

/-- The files are the paths of the eligible locations, each location once, by code point. -/
structure Exact (excludes : ExcludeSet) (root : FileTree) (files : List Text) : Prop where
  sorted : files.Pairwise fun a b => ¬ b < a
  routes : ∃ routes : List Location, routes.Nodup ∧
    (∀ r, r ∈ routes ↔ Eligible excludes root r) ∧ files.Perm (routes.map slashed)

theorem sorted_sort (ts : List Text) : (Text.sort ts).Pairwise fun a b => ¬ b < a := by
  have sorted := @List.pairwise_mergeSort _ Text.le
    (fun a b c ab bc => by
      simp only [Text.le, Bool.not_eq_true', decide_eq_false_iff_not, not_lt] at ab bc ⊢
      exact ab.trans bc)
    (fun a b => by
      simp only [Text.le, Bool.or_eq_true, Bool.not_eq_true', decide_eq_false_iff_not, not_lt]
      exact le_total a b) ts
  simpa only [Text.sort, Text.le, Bool.not_eq_true', decide_eq_false_iff_not] using sorted

/-- What is kept of a tree, in order, is exactly what is eligible in it. -/
theorem exact_sort_keptIn (excludes : ExcludeSet) {entries : List (Text × FileTree)}
    (wellNamed : (FileTree.directory entries).WellNamed) :
    Exact excludes (.directory entries) (Text.sort (keptIn excludes [] entries)) := by
  obtain ⟨routes, distinct, mem, collected⟩ :=
    collects_keptIn wellNamed entries (get?_nil _) (fun _ => id) (wellNamed [] _ (get?_nil _)).2
      (by simp) entered_singleton
  refine ⟨sorted_sort _, routes, distinct, fun r => ?_, ?_⟩
  · rw [mem]
    exact ⟨And.right, fun eligible =>
      ⟨(eligible.below_entry (get?_nil _)).1 List.nil_prefix, eligible⟩⟩
  · rw [← collected]
    exact List.mergeSort_perm _ _

/-- A directory is listed exactly, whatever patterns a set can be made of. -/
theorem exists_files_exact {d : Disk} {root : Text} {entries : List (Text × FileTree)}
    {patterns : List Text} {excludes : ExcludeSet} (node : d.node root = .ok (.directory entries))
    (wellNamed : (FileTree.directory entries).WellNamed)
    (compiled : ExcludeSet.ofPatterns patterns = .ok excludes) :
    ∃ files, (ofRoot d root patterns).files = .ok files ∧
      Exact excludes (.directory entries) files :=
  ⟨_, files_ofRoot node compiled, exact_sort_keptIn excludes wellNamed⟩

/-- **A listing is exactly the eligible files.**  The patterns are those of the `.gitignore` of the
root, or the given ones where that is no text that can be read; if one of them is nested too deep,
nothing is listed. -/
theorem ofRoot_eligible {d : Disk} {root : Text} {entries : List (Text × FileTree)}
    (config : Config) (node : d.node root = .ok (.directory entries))
    (wellNamed : (FileTree.directory entries).WellNamed) :
    (∀ text, d.readText (Path.join root Gitignore.fileName) = .ok text →
      patterns d root config.defaultExcludes = Gitignore.patterns text) ∧
    (∀ error, d.readText (Path.join root Gitignore.fileName) = .error error →
      patterns d root config.defaultExcludes = config.defaultExcludes) ∧
    (∀ excludes, ExcludeSet.ofPatterns (patterns d root config.defaultExcludes) = .ok excludes →
      ∃ files, (ofRoot d root (patterns d root config.defaultExcludes)).files = .ok files ∧
        Exact excludes (.directory entries) files) ∧
    ∀ defect, ExcludeSet.ofPatterns (patterns d root config.defaultExcludes) = .error defect →
      (ofRoot d root (patterns d root config.defaultExcludes)).files =
        .error (.excludesTooDeep defect) := by
  refine ⟨fun text => patterns_of_ok _, fun error => patterns_of_error _,
    fun excludes compiled => exists_files_exact node wellNamed compiled, fun defect compiled => ?_⟩
  simp only [ofRoot, node, compiled]

/-- An ignored directory, hidden files, a link, and a second `.gitignore` that ignores a file beside
it. -/
def marked : List (Text × FileTree) :=
  [(".gitignore".toList, .file (Text.encode "target/\n".toList)), (".hidden".toList, .file []),
    ("target".toList, .directory [("out.txt".toList, .file [])]),
    ("sub".toList, .directory
      [(".gitignore".toList, .file (Text.encode "*.rs\n".toList)), ("in.rs".toList, .file [])]),
    ("link".toList, .link "sub".toList)]

theorem wellNamed_marked : (FileTree.directory marked).WellNamed := by
  refine wellNamed_directory (by decide) (by decide) ?_
  simp only [marked, List.forall_mem_cons, List.not_mem_nil, false_imp_iff, implies_true, and_true]
  refine ⟨wellNamed_file _, wellNamed_file _, ?_, ?_, wellNamed_link _⟩
  · refine wellNamed_directory (by decide) (by decide) ?_
    simpa using wellNamed_file _
  · refine wellNamed_directory (by decide) (by decide) ?_
    simpa using ⟨wellNamed_file _, wellNamed_file _⟩

theorem ofRoot_eligible_marked :
    Disk.node { tree := .directory marked } "/".toList = .ok (.directory marked) ∧
      (FileTree.directory marked).WellNamed ∧
      ∃ files, (ofRoot { tree := .directory marked } "/".toList
          (patterns { tree := .directory marked } "/".toList [])).files = .ok files ∧
        Exact (ExcludeSet.globs (Gitignore.patterns "target/\n".toList)) (.directory marked) files := by
  have node : Disk.node { tree := .directory marked } "/".toList = .ok (.directory marked) := rfl
  obtain ⟨ignored, -, listed, -⟩ :=
    ofRoot_eligible { defaultExcludes := [] } node wellNamed_marked
  have held : patterns { tree := .directory marked } "/".toList [] =
      Gitignore.patterns "target/\n".toList := ignored _ (by decide +kernel)
  refine ⟨node, wellNamed_marked, listed _ ?_⟩
  rw [held]
  exact ExcludeSet.ofPatterns_eq_ok_iff.2 ⟨rfl, ExcludeSet.nestingDefect?_globs.1 (by decide +kernel)⟩

-- Hidden files and the second `.gitignore` are listed, and so is the file that it names.
example :
    keptIn (ExcludeSet.globs (Gitignore.patterns "target/\n".toList)) [] marked =
      [".gitignore".toList, ".hidden".toList, "sub/.gitignore".toList, "sub/in.rs".toList] := by
  decide +kernel

/-- A letter in groups, each group in the one before. -/
def braced (depth : Nat) : Text :=
  List.replicate depth '\x7b' ++ "a".toList ++ List.replicate depth '\x7d'

set_option maxRecDepth 10000 in
/-- With a pattern that is nested too deep nothing is listed, though the files are eligible. -/
theorem ofRoot_braced :
    Eligible (ExcludeSet.globs [braced 300]) nested.tree ["b.txt".toList] ∧
      (ofRoot nested "/".toList (patterns nested "/".toList [braced 300])).files =
        .error (.excludesTooDeep (.inSet 0)) := by
  have node : nested.node "/".toList = .ok nested.tree := rfl
  have unread : patterns nested "/".toList [braced 300] = [braced 300] := patterns_of_error _ rfl
  have deep : (ExcludeSet.globs [braced 300]).nestingDefect? = some (.inSet 0) := by
    decide +kernel
  have refused : ExcludeSet.ofPatterns [braced 300] = .error (.inSet 0) := by
    rw [ExcludeSet.ofPatterns, deep]
  refine ⟨⟨⟨[], rfl⟩, by decide +kernel, entered_singleton _⟩, ?_⟩
  rw [unread, ofRoot, node]
  simp only [nested, refused]

end Listing

end PromptDoc
