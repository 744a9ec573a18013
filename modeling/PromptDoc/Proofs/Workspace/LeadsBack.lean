/-
# PromptDoc.Proofs.Workspace.LeadsBack — a listed path leads back to its file

A listing writes the location of a file as a path, and a reader joins that path to the root and
walks it. The two are inverse where the names on the way are plain, UTF-8 without a backslash
(`FileTree.IsPlain`): the components of the path are then the location (`names_slashed`), and walking
them from where the root leads, no link is met (`Disk.find_join`), since directories are all that a
listing goes through. The path is read back as that file unless root and path together are longer
than any path may be (`leadsBack_of_file`).

They are inverse nowhere else. What a path is walked by are names without slashes of either kind, so
without links that say otherwise no other location is reached (`Disk.mem_steps_of_find_join`,
`isPlain_of_mem_steps`). And two files may have one path (`not_leadsBack_backslashed`): where one has
a backslash for a slash, or where their names differ in what is malformed.
-/
import PromptDoc.Expansion.Standard
import PromptDoc.Proofs.Exclude.Members
import PromptDoc.Proofs.FileTree.Site
import PromptDoc.Proofs.Workspace.Eligible

namespace PromptDoc

set_option autoImplicit false

/-! ## Names that entries can have -/

namespace FileTree

/-- The entries of every directory have names that they can have, each its own. -/
def Legal (t : FileTree) : Prop :=
  ∀ route entries, t.get? route = some (.directory entries) →
    (∀ e ∈ entries, IsLegal e.1) ∧ (entries.map Prod.fst).Nodup

variable {t node : FileTree} {route : Location}

theorem Legal.wellNamed (legal : t.Legal) : t.WellNamed := fun route entries stands =>
  (legal route entries stands).imp_left fun names e inside none =>
    (names e inside).nonempty (FileName.bytes_eq_nil_iff.2 none)

/-- What holds of the name of every entry holds of the names that lead to a location. -/
theorem forall_names {P : Text → Prop}
    (all : ∀ above entries, t.get? above = some (.directory entries) → ∀ e ∈ entries, P e.1)
    (stands : t.get? route = some node) : ∀ name ∈ route, P name := by
  intro name inside
  obtain ⟨above, below, rfl⟩ := List.append_of_mem inside
  rw [get?_append, Option.bind_eq_some_iff] at stands
  obtain ⟨upper, atAbove, stands⟩ := stands
  cases upper with
  | file contents => cases stands
  | link target => cases stands
  | directory entries =>
      rw [get?_directory, Option.bind_eq_some_iff] at stands
      obtain ⟨child, held, -⟩ := stands
      exact all above entries atAbove _ (mem_of_child? held)

end FileTree

/-! ## Reading a path below a root -/

/-- A path to something else than a directory, to be read from where another leads. -/
structure Path.Inner (path : Text) : Prop where
  relative : Path.isAbsolute path = false
  nonempty : path ≠ []
  unslashed : Path.endsInSlash path = false
  noNul : '\x00' ∉ path

namespace Disk

open FileTree

variable {d : Disk} {root path : Text} {here : Location} {e : Entry}

theorem noNul_join (atRoot : Path.Fit root) (inner : Path.Inner path) :
    '\x00' ∉ Path.join root path := by
  rcases @Path.join_eq root path inner.relative with ⟨joined, -⟩ | ⟨joined, -⟩ <;>
    simp [joined, atRoot.noNul, inner.noNul]

theorem join_ne_nil (inner : Path.Inner path) : Path.join root path ≠ [] := by
  rcases @Path.join_eq root path inner.relative with ⟨joined, -⟩ | ⟨joined, -⟩ <;>
    simp [joined, inner.nonempty]

/-- The names of a root lead to where it does: the dot for a slash behind it leads nowhere. -/
theorem exists_walks_names (found : d.find root = .ok here) :
    Path.Fit root ∧ ∃ n ≤ maxLinks,
      Walks d.tree n (origin root d.workingDirectory) (Path.names root) here := by
  obtain ⟨atRoot, n, within, route⟩ := locate_eq_ok_iff.1 (find_eq_ok_iff.1 found)
  rw [Path.steps_eq] at route
  obtain ⟨i, j, m, rfl, front, back⟩ := route.exists_of_append
  have dots : Path.Dots (if Path.endsInSlash root then [['.']] else []) := by
    split <;> simp [Path.Dots]
  obtain rfl := back.eq_of_dots dots
  exact ⟨atRoot, i, by omega, front⟩

theorem steps_join (relative : Path.isAbsolute path = false) (nonempty : path ≠ []) :
    Path.steps (Path.join root path) = Path.names root ++ Path.steps path := by
  rw [Path.steps_eq, Path.endsInSlash_join relative nonempty, Path.names_join relative,
    List.append_assoc, ← Path.steps_eq]

theorem origin_join (relative : Path.isAbsolute path = false) :
    origin (Path.join root path) d.workingDirectory = origin root d.workingDirectory := by
  rw [origin, origin, Path.isAbsolute_join relative]

/-- From where a root leads, a path leads on by its names to what stands there, if that is no
link. -/
theorem find_join (found : d.find root = .ok here) (inner : Path.Inner path)
    (short : (Path.join root path).byteLength ≤ maxPath)
    (isName : ∀ name ∈ Path.names path, IsName name)
    (stands : d.tree.entryAt? (here ++ Path.names path) = some e)
    (node : ∀ target, e ≠ .link target) :
    d.find (Path.join root path) = .ok (here ++ Path.names path) := by
  obtain ⟨atRoot, n, within, front⟩ := exists_walks_names found
  have fit : Path.Fit (Path.join root path) := ⟨noNul_join atRoot inner, join_ne_nil inner, short⟩
  have onward := front.append (walks_of_entryAt? stands node isName)
  refine find_eq_ok_iff.2 (locate_eq_ok_iff.2 ⟨fit, n + 0, by omega, ?_⟩)
  rw [steps_join inner.relative inner.nonempty, origin_join inner.relative, Path.steps_eq,
    inner.unslashed]
  simpa using onward

/-- Without links, what is found below a root by a path is found by steps of that path. -/
theorem mem_steps_of_find_join (linkless : ∀ m target, d.tree.entryAt? m ≠ some (.link target))
    (found : d.find root = .ok here) (nonempty : path ≠ []) {route : Location}
    (back : d.find (Path.join root path) = .ok (here ++ route)) :
    ∀ name ∈ route, name ∈ Path.steps path := by
  obtain ⟨-, n, -, whole⟩ := locate_eq_ok_iff.1 (find_eq_ok_iff.1 back)
  obtain ⟨kept, entered, ⟨rest, rfl⟩, place, among⟩ : ∃ kept entered, kept <+: here ∧
      here ++ route = kept ++ entered ∧ ∀ name ∈ entered, name ∈ Path.steps path := by
    cases absolute : Path.isAbsolute path with
    | true =>
        rw [Path.join, if_pos absolute, origin, if_pos absolute] at whole
        obtain ⟨kept, entered, cut, place, among⟩ := whole.exists_entered linkless
        obtain rfl := List.prefix_nil.1 cut
        exact ⟨[], entered, List.nil_prefix, place, among⟩
    | false =>
        rw [steps_join absolute nonempty, origin_join absolute] at whole
        obtain ⟨i, j, m, -, front, back⟩ := whole.exists_of_append
        obtain ⟨-, _, -, front'⟩ := exists_walks_names found
        obtain rfl := front.unique front'
        exact back.exists_entered linkless
  -- What the walk keeps is in front of where the root leads, so the rest was entered.
  rw [List.append_assoc, List.append_cancel_left_eq] at place
  intro name inside
  exact among name (place ▸ List.mem_append_right rest inside)

/-- A path that is too long is refused, whatever stands there. -/
theorem readBelow_of_long (found : d.find root = .ok here) (inner : Path.Inner path)
    (long : maxPath < (Path.join root path).byteLength) :
    d.readBelow root path = .error (.fileUnreadable path FileError.nameTooLong.message) := by
  have atRoot := (locate_eq_ok_iff.1 (find_eq_ok_iff.1 found)).1
  have refused : d.read (Path.join root path) = .error .nameTooLong := by
    rw [Disk.read, Disk.node, find, locate, walkPath,
      if_neg (by simpa using noNul_join atRoot inner), if_neg (join_ne_nil inner), if_pos long]
    rfl
  rw [readBelow, refused]

end Disk

namespace Listing

open FileTree

variable {d : Disk} {root : Text} {tree : FileTree} {route : Location}

/-! ## The path of a location -/

/-- A plain name is a component as it is. -/
theorem component_of_isPlain {name : Text} (legal : IsLegal name) (plain : IsPlain name) :
    component name = name := by
  obtain ⟨slash, backslash⟩ := legal.isPlain_iff.1 plain
  rw [component, FileName.shown_of_free slash, ExcludeSet.forwardSlashes_of_not_mem backslash]

theorem backslash_not_mem_slashed (route : Location) : '\x5c' ∉ slashed route := by
  rw [slashed_eq_forwardSlashes, ExcludeSet.forwardSlashes, List.mem_map]
  rintro ⟨c, -, turned⟩
  split at turned
  · cases turned
  · contradiction

/-- What a listed path is walked by are names that hold no slash of either kind. -/
theorem isPlain_of_mem_steps {name : Text} (inside : name ∈ Path.steps (slashed route)) :
    IsPlain name := by
  rw [Path.steps_eq, List.mem_append] at inside
  rcases inside with component | dot
  · have part := List.mem_of_mem_filter component
    refine isPlain_of_free (Path.slash_not_mem_of_mem_splitOn part) fun held => ?_
    have inside := Text.mem_intercalate_of_mem part held ['/']
    rw [List.intercalate_splitOn] at inside
    exact backslash_not_mem_slashed route inside
  · split at dot
    · rw [List.mem_singleton.1 dot]
      decide
    · cases dot

theorem slashed_ne_nil (solid : ∀ name ∈ route, name ≠ []) (below : route ≠ []) :
    slashed route ≠ [] := by
  obtain ⟨first, rest, rfl⟩ := List.exists_cons_of_ne_nil below
  exact Text.intercalate_ne_nil (mt component_eq_nil_iff.1 (solid first List.mem_cons_self)) _

section
variable (legal : ∀ name ∈ route, IsLegal name) (plain : ∀ name ∈ route, IsPlain name)
include legal

theorem ne_nil_of_isLegal : ∀ name ∈ route, name ≠ [] := fun name inside none =>
  (legal name inside).nonempty (FileName.bytes_eq_nil_iff.2 none)

include plain

theorem slashed_eq : slashed route = ['/'].intercalate route := by
  rw [slashed, List.map_congr_left fun name inside =>
    component_of_isPlain (legal name inside) (plain name inside), List.map_id']

/-- The components of the path of a location are the location. -/
theorem names_slashed : Path.names (slashed route) = route := by
  rw [slashed_eq legal plain,
    Path.names_intercalate fun name inside => (legal name inside).free_of_isPlain (plain name inside)]
  exact List.filter_eq_self.2 fun name inside => by simpa using ne_nil_of_isLegal legal name inside

theorem nul_not_mem_slashed : '\x00' ∉ slashed route := by
  rw [slashed_eq legal plain]
  intro inside
  obtain ⟨name, member, inside⟩ := Text.exists_of_mem_intercalate (by decide) inside
  exact (legal name member).nul_not_mem (plain name member) inside

variable (below : route ≠ [])
include below

theorem isAbsolute_slashed : Path.isAbsolute (slashed route) = false := by
  obtain ⟨first, rest, rfl⟩ := List.exists_cons_of_ne_nil below
  have free := (legal first List.mem_cons_self).free_of_isPlain (plain first List.mem_cons_self)
  have solid := ne_nil_of_isLegal legal first List.mem_cons_self
  have cut : ['/'].intercalate [first] <+: ['/'].intercalate (first :: rest) :=
    Path.intercalate_prefix (List.prefix_append [first] rest)
  rw [List.intercalate_singleton] at cut
  rw [slashed_eq legal plain, ← Path.isAbsolute_of_prefix cut solid,
    Path.isAbsolute_of_free free]

theorem endsInSlash_slashed : Path.endsInSlash (slashed route) = false := by
  obtain rfl | ⟨above, name, rfl⟩ := List.eq_nil_or_concat route
  · exact absurd rfl below
  rw [List.concat_eq_append] at *
  have free := (legal name (by simp)).free_of_isPlain (plain name (by simp))
  have solid := ne_nil_of_isLegal legal name (by simp)
  have same := component_of_isPlain (legal name (by simp)) (plain name (by simp))
  by_cases top : above = []
  · rw [top, List.nil_append, slashed_singleton, same, Path.endsInSlash_of_free free]
  · rw [slashed_concat top, same, List.append_cons, Path.endsInSlash_append _ solid,
      Path.endsInSlash_of_free free]

/-- The path of a location can be read below a root. -/
theorem inner_slashed : Path.Inner (slashed route) where
  relative := isAbsolute_slashed legal plain below
  nonempty := slashed_ne_nil (ne_nil_of_isLegal legal) below
  unslashed := endsInSlash_slashed legal plain below
  noNul := nul_not_mem_slashed legal plain

end

/-! ## The way back -/

/-- The path that a location below a root is listed by leads back to the file there, and the file is
read by it; if root and path together are too long, reading is refused. -/
structure LeadsBack (d : Disk) (root : Text) (route : Location) : Prop where
  reads : (Path.join root (slashed route)).byteLength ≤ maxPath →
    ∃ here contents, d.find root = .ok here ∧
      d.find (Path.join root (slashed route)) = .ok (here ++ route) ∧
      d.tree.get? (here ++ route) = some (.file contents) ∧
      d.readBelow root (slashed route) = .ok contents
  refused : maxPath < (Path.join root (slashed route)).byteLength →
    d.readBelow root (slashed route) =
      .error (.fileUnreadable (slashed route) FileError.nameTooLong.message)

/-- A regular file below a root is found by the path of its location. -/
theorem leadsBack_of_file {contents : Bytes} (node : d.node root = .ok tree)
    (below : route ≠ []) (stands : tree.get? route = some (.file contents))
    (legal : ∀ name ∈ route, IsLegal name) (plain : ∀ name ∈ route, IsPlain name) :
    LeadsBack d root route := by
  obtain ⟨here, located, atRoot⟩ := Disk.node_eq_ok_iff.1 node
  have found := Disk.find_eq_ok_iff.2 located
  have inner := inner_slashed legal plain below
  refine ⟨fun short => ?_, Disk.readBelow_of_long found inner⟩
  have there : d.tree.get? (here ++ route) = some (.file contents) := by
    rw [get?_append, atRoot, Option.bind_some, stands]
  have back : d.find (Path.join root (slashed route)) = .ok (here ++ route) := by
    have onward := @Disk.find_join d root _ here (.file contents) found inner short
    rw [names_slashed legal plain] at onward
    exact onward (fun name inside => (legal name inside).isName (plain name inside))
      (entryAt?_eq_file_iff.2 there) nofun
  have read : d.read (Path.join root (slashed route)) = .ok contents :=
    Disk.read_eq_ok_iff.2 ⟨_, Disk.find_eq_ok_iff.1 back, entryAt?_eq_file_iff.2 there⟩
  exact ⟨here, contents, found, back, there, by rw [Disk.readBelow, read]⟩

/-- Without links, only plain names lead back. -/
theorem LeadsBack.isPlain (leads : LeadsBack d root route)
    (linkless : ∀ l target, d.tree.entryAt? l ≠ some (.link target)) (below : route ≠ [])
    (legal : ∀ name ∈ route, IsLegal name)
    (short : (Path.join root (slashed route)).byteLength ≤ maxPath) :
    ∀ name ∈ route, IsPlain name := by
  obtain ⟨here, _, found, back, -, -⟩ := leads.reads short
  have solid := slashed_ne_nil (ne_nil_of_isLegal legal) below
  intro name inside
  exact isPlain_of_mem_steps (Disk.mem_steps_of_find_join linkless found solid back name inside)

/-- A listing is strictly increasing if no two files have one path, and only then. -/
theorem Exact.increasing_iff {excludes : ExcludeSet} {files : List Text}
    (exact_ : Exact excludes tree files) :
    files.Pairwise (· < ·) ↔ ∀ r r', Eligible excludes tree r → Eligible excludes tree r' →
      slashed r = slashed r' → r = r' := by
  obtain ⟨routes, distinct, mem, paths⟩ := exact_.routes
  have single : files.Nodup ↔ ∀ r ∈ routes, ∀ r' ∈ routes, slashed r = slashed r' → r = r' := by
    rw [paths.nodup_iff, List.nodup_map_iff_inj_on distinct]
  simp only [mem] at single
  constructor
  · intro increasing r r' here there same
    exact single.1 (increasing.imp ne_of_lt) r here r' there same
  · intro apart
    have nodup := single.2 fun r here r' there => apart r r' here there
    exact (exact_.sorted.and nodup).imp fun ⟨order, differ⟩ => lt_of_le_of_ne (not_lt.1 order) differ

theorem Exact.mem_iff {excludes : ExcludeSet} {files : List Text} {path : Text}
    (exact_ : Exact excludes tree files) :
    path ∈ files ↔ ∃ r, Eligible excludes tree r ∧ slashed r = path := by
  obtain ⟨routes, -, mem, paths⟩ := exact_.routes
  simp only [paths.mem_iff, List.mem_map, mem]

/-- **Plain paths lead back to their files, and no others do.**  A listing has the path of every
eligible location; it is strictly increasing just if no two of them have one path.  The path of a
location whose names are plain leads back to the file there, and without links on the disk no other
path does.  If all names are plain, no two locations have one path: the listing is strictly
increasing, and every path in it is that of one eligible location and of no other. -/
theorem ofRoot_leadsBack {d : Disk} {root : Text} {entries : List (Text × FileTree)}
    {excludes : ExcludeSet} (config : Config) (node : d.node root = .ok (.directory entries))
    (legal : (FileTree.directory entries).Legal)
    (compiled : ExcludeSet.ofPatterns (patterns d root config.defaultExcludes) = .ok excludes) :
    ∃ files, (ofRoot d root (patterns d root config.defaultExcludes)).files = .ok files ∧
      Exact excludes (.directory entries) files ∧
      (files.Pairwise (· < ·) ↔
        ∀ r r', Eligible excludes (.directory entries) r →
          Eligible excludes (.directory entries) r' → slashed r = slashed r' → r = r') ∧
      (∀ r, Eligible excludes (.directory entries) r →
        slashed r ∈ files ∧ ((∀ name ∈ r, IsPlain name) → LeadsBack d root r)) ∧
      ((∀ l target, d.tree.entryAt? l ≠ some (.link target)) →
        ∀ r, Eligible excludes (.directory entries) r →
          (Path.join root (slashed r)).byteLength ≤ maxPath →
            LeadsBack d root r → ∀ name ∈ r, IsPlain name) ∧
      ((∀ r, Eligible excludes (.directory entries) r → ∀ name ∈ r, IsPlain name) →
        files.Pairwise (· < ·) ∧
        ∀ path ∈ files, ∃! r, Eligible excludes (.directory entries) r ∧ slashed r = path) := by
  obtain ⟨files, list, exact_⟩ := exists_files_exact node legal.wellNamed compiled
  have isLegal : ∀ r, Eligible excludes (.directory entries) r → ∀ name ∈ r, IsLegal name := by
    intro r eligible
    obtain ⟨contents, stands⟩ := eligible.file
    exact forall_names (fun above es there => (legal above es there).1) stands
  have below : ∀ r, Eligible excludes (.directory entries) r → r ≠ [] := by
    rintro r eligible rfl
    obtain ⟨contents, stands⟩ := eligible.file
    cases stands
  have back : ∀ r, Eligible excludes (.directory entries) r → (∀ name ∈ r, IsPlain name) →
      LeadsBack d root r := by
    intro r eligible plain
    obtain ⟨contents, stands⟩ := eligible.file
    exact leadsBack_of_file node (below r eligible) stands (isLegal r eligible) plain
  refine ⟨files, list, exact_, exact_.increasing_iff,
    fun r eligible => ⟨exact_.mem_iff.2 ⟨r, eligible, rfl⟩, back r eligible⟩,
    fun linkless r eligible short leads =>
      leads.isPlain linkless (below r eligible) (isLegal r eligible) short, fun plain => ?_⟩
  have apart : ∀ r r', Eligible excludes (.directory entries) r →
      Eligible excludes (.directory entries) r' → slashed r = slashed r' → r = r' := by
    intro r r' here there same
    rw [← names_slashed (isLegal r here) (plain r here), same,
      names_slashed (isLegal r' there) (plain r' there)]
  refine ⟨exact_.increasing_iff.2 apart, fun path inside => ?_⟩
  obtain ⟨r, eligible, rfl⟩ := exact_.mem_iff.1 inside
  exact ⟨r, ⟨eligible, rfl⟩, fun r' other => apart r' r other.1 eligible other.2⟩

/-- The file `r.txt` in a directory `a`, and a file beside that directory. -/
def beside (name : Text) : List (Text × FileTree) :=
  [("a".toList, .directory [("r.txt".toList, .file (Text.encode "1".toList))]),
    (name, .file (Text.encode "2".toList))]

theorem forall_directories_beside {name : Text} {P : List (Text × FileTree) → Prop}
    (outer : P (beside name)) (inner : P [("r.txt".toList, .file (Text.encode "1".toList))]) :
    ∀ route es, (FileTree.directory (beside name)).get? route = some (.directory es) → P es := by
  refine forall_directories outer (List.forall_mem_cons.2 ⟨?_, List.forall_mem_singleton.2 ?_⟩)
  · exact forall_directories inner (List.forall_mem_singleton.2 (forall_directories_of_leaf nofun))
  · exact forall_directories_of_leaf nofun

/-- A disk with two files of one name, and a link to the directory that holds both. -/
def linked : Disk where
  tree := .directory
    [("w".toList, .directory (beside "r.txt".toList)), ("l".toList, .link "w".toList)]

/-- A disk with two files whose names differ in one byte that is no UTF-8. -/
def malformed : Disk where
  tree := .directory
    [(FileName.ofBytes [0x61, 0xFE, 0x2E, 0x63], .file (Text.encode "1".toList)),
      (FileName.ofBytes [0x61, 0xFF, 0x2E, 0x63], .file (Text.encode "2".toList))]

theorem linkless_malformed (l : Location) (target : Text) :
    malformed.tree.entryAt? l ≠ some (.link target) := by
  intro link
  obtain ⟨node, stands, form⟩ := Option.map_eq_some_iff.1 link
  cases l with
  | nil =>
      cases stands
      cases form
  | cons name rest =>
      rw [malformed, get?_directory, Option.bind_eq_some_iff] at stands
      obtain ⟨t, held, stands⟩ := stands
      obtain ⟨contents, rfl⟩ : ∃ contents, t = .file contents := by
        rcases List.mem_cons.1 (mem_of_child? held) with same | last
        · exact ⟨_, (Prod.mk.inj same).2⟩
        · exact ⟨_, (Prod.mk.inj (List.mem_singleton.1 last)).2⟩
      cases rest with
      | nil =>
          cases stands
          cases form
      | cons _ _ => cases stands

theorem legal_malformed : malformed.tree.Legal := by
  refine forall_directories (by decide +kernel) ?_
  refine List.forall_mem_cons.2 ⟨?_, List.forall_mem_singleton.2 ?_⟩
  · exact forall_directories_of_leaf (by simp [entry])
  · exact forall_directories_of_leaf (by simp [entry])

/-- Below a link, every path leads back. Two malformed names are listed by one path, which leads
back to neither file. -/
theorem ofRoot_leadsBack_linked :
    (linked.node "/l/".toList = .ok (.directory (beside "r.txt".toList)) ∧
      (FileTree.directory (beside "r.txt".toList)).Legal ∧
      ExcludeSet.ofPatterns (patterns linked "/l/".toList []) = .ok (ExcludeSet.globs []) ∧
      ∃ files, (ofRoot linked "/l/".toList (patterns linked "/l/".toList [])).files = .ok files ∧
        files.Pairwise (· < ·) ∧
        (∀ path ∈ files, ∃! r,
          Eligible (ExcludeSet.globs []) (.directory (beside "r.txt".toList)) r ∧ slashed r = path) ∧
        ∀ r, Eligible (ExcludeSet.globs []) (.directory (beside "r.txt".toList)) r →
          slashed r ∈ files ∧ LeadsBack linked "/l/".toList r) ∧
    malformed.node "/".toList = .ok malformed.tree ∧ malformed.tree.Legal ∧
      ExcludeSet.ofPatterns (patterns malformed "/".toList []) = .ok (ExcludeSet.globs []) ∧
      (ofRoot malformed "/".toList (patterns malformed "/".toList [])).files =
        .ok ["a\uFFFD.c".toList, "a\uFFFD.c".toList] ∧
      ¬ LeadsBack malformed "/".toList [FileName.ofBytes [0x61, 0xFE, 0x2E, 0x63]] := by
  constructor
  · have node : linked.node "/l/".toList = .ok (.directory (beside "r.txt".toList)) := rfl
    have legal : (FileTree.directory (beside "r.txt".toList)).Legal :=
      forall_directories_beside (by decide +kernel) (by decide +kernel)
    have compiled : ExcludeSet.ofPatterns (patterns linked "/l/".toList []) =
        .ok (ExcludeSet.globs []) := by
      rw [patterns_of_error [] rfl]
      rfl
    have plain : ∀ r, Eligible (ExcludeSet.globs []) (.directory (beside "r.txt".toList)) r →
        ∀ name ∈ r, IsPlain name := by
      intro r eligible
      obtain ⟨contents, stands⟩ := eligible.file
      exact forall_names (forall_directories_beside (by decide +kernel) (by decide +kernel)) stands
    obtain ⟨files, list, -, -, back, -, increasing⟩ :=
      ofRoot_leadsBack { defaultExcludes := [] } node legal compiled
    obtain ⟨sorted, single⟩ := increasing plain
    exact ⟨node, legal, compiled, files, list, sorted, single,
      fun r eligible => ⟨(back r eligible).1, (back r eligible).2 (plain r eligible)⟩⟩
  · have node : malformed.node "/".toList = .ok malformed.tree := rfl
    have compiled : ExcludeSet.ofPatterns (patterns malformed "/".toList []) =
        .ok (ExcludeSet.globs []) := by
      rw [patterns_of_error [] rfl]
      rfl
    have eligible : Eligible (ExcludeSet.globs []) malformed.tree
        [FileName.ofBytes [0x61, 0xFE, 0x2E, 0x63]] :=
      ⟨⟨Text.encode "1".toList, rfl⟩, by decide +kernel, entered_singleton _⟩
    have list : (ofRoot malformed "/".toList (patterns malformed "/".toList [])).files =
        .ok ["a\uFFFD.c".toList, "a\uFFFD.c".toList] := by
      rw [files_ofRoot node compiled, sort_of_sorted (by decide +kernel)]
      decide +kernel
    obtain ⟨files, -, -, -, -, only, -⟩ :=
      ofRoot_leadsBack { defaultExcludes := [] } node legal_malformed compiled
    refine ⟨node, legal_malformed, compiled, list, fun leads => ?_⟩
    have plain := only linkless_malformed _ eligible (by decide +kernel) leads _ List.mem_cons_self
    exact absurd plain (by decide +kernel)

/-- A disk with a file whose name has a backslash where the path of another has a slash. -/
def backslashed : Disk where
  tree := .directory (beside "a\x5cr.txt".toList)

/-- Both files are listed by the path of one, and by that path only that one is read. -/
theorem not_leadsBack_backslashed :
    backslashed.tree.Legal ∧
      Eligible (ExcludeSet.globs []) backslashed.tree ["a\x5cr.txt".toList] ∧
      (ofRoot backslashed "/".toList []).files.toOption =
        some ["a/r.txt".toList, "a/r.txt".toList] ∧
      backslashed.tree.get? ["a\x5cr.txt".toList] = some (.file (Text.encode "2".toList)) ∧
      (backslashed.readBelow "/".toList "a/r.txt".toList).toOption =
        some (Text.encode "1".toList) ∧
      ¬ LeadsBack backslashed "/".toList ["a\x5cr.txt".toList] := by
  refine ⟨forall_directories_beside (by decide +kernel) (by decide +kernel),
    ⟨⟨_, rfl⟩, by decide +kernel, entered_singleton _⟩, ?_, rfl, by decide +kernel, fun leads => ?_⟩
  · have node : backslashed.node "/".toList = .ok backslashed.tree := rfl
    have compiled : ExcludeSet.ofPatterns [] = .ok (ExcludeSet.globs []) := rfl
    rw [files_ofRoot node compiled, sort_of_sorted (by decide +kernel)]
    decide +kernel
  obtain ⟨here, contents, -, back, -, -⟩ := leads.reads (by decide +kernel)
  have elsewhere : backslashed.find (Path.join "/".toList (slashed ["a\x5cr.txt".toList])) =
      .ok (["a".toList] ++ ["r.txt".toList]) := by decide +kernel
  rw [elsewhere, Except.ok.injEq] at back
  exact absurd (List.append_inj_right' back rfl) (by decide)

end Listing

end PromptDoc
