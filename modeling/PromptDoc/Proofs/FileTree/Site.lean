/-
# PromptDoc.Proofs.FileTree.Site — where a path to a file leads, and what is done there

A path that can be a file's has a `Disk.Site`: the directory that it leads to, links
followed, and a name in it. Whatever is done at the path is done at that name:
`Site.create_missing`, `Site.write_file`, `Site.remove_file` and `Site.rename_file` say how
the disk is then. A path that a file is read from has a site (`exists_site`).
-/
import PromptDoc.Proofs.FileTree.Path
import PromptDoc.Proofs.FileTree.Walk

namespace PromptDoc

set_option autoImplicit false

/-! ## Paths that can be walked -/

/-- A text that can be walked as a path. -/
structure Path.Fit (path : Text) : Prop where
  noNul : '\x00' ∉ path
  nonempty : path ≠ []
  short : path.byteLength ≤ FileTree.maxPath

theorem Path.Fit.of_prefix {p path : Text} (fit : Path.Fit path) (cut : p <+: path)
    (nonempty : p ≠ []) : Path.Fit p := by
  refine ⟨fun inside => fit.noNul (cut.subset inside), nonempty, ?_⟩
  obtain ⟨rest, rfl⟩ := cut
  have short := fit.short
  rw [Text.byteLength_append] at short
  exact Nat.le_of_add_right_le short

/-- Dots lead nowhere. -/
theorem FileTree.Walks.eq_of_dots {t : FileTree} {n : Nat} {here l : Location}
    {dots : List Text} (route : FileTree.Walks t n here dots l) (all : Path.Dots dots) :
    here = l := by
  induction route with
  | done => rfl
  | stay _ _ ih => exact ih fun c later => all c (List.mem_cons_of_mem _ later)
  | up _ _ _ => exact absurd (all _ List.mem_cons_self) (by decide)
  | enter name _ _ _ _ => exact absurd (all _ List.mem_cons_self) name.ne_dot
  | follow name _ _ _ => exact absurd (all _ List.mem_cons_self) name.ne_dot

namespace Disk

open FileTree

variable {d : Disk} {follow : Bool} {path : Text} {steps : List Text}

theorem walkPath_of_fit (fit : Path.Fit path) :
    d.walkPath follow path steps =
      walk d.tree follow maxLinks (origin path d.workingDirectory) steps := by
  rw [walkPath, if_neg (by simpa using fit.noNul), if_neg fit.nonempty,
    if_neg (Nat.not_lt.2 fit.short)]
  rfl

theorem exists_error_of_not_fit (unfit : ¬Path.Fit path) :
    ∃ e, ∀ (d : Disk) follow steps, d.walkPath follow path steps = .error e := by
  simp only [walkPath]
  split
  · exact ⟨_, fun _ _ _ => rfl⟩
  split
  · exact ⟨_, fun _ _ _ => rfl⟩
  split
  · exact ⟨_, fun _ _ _ => rfl⟩
  rename_i noNul nonempty short
  exact absurd ⟨by simpa using noNul, nonempty, Nat.not_lt.1 short⟩ unfit

theorem fit_of_walkPath {spot : Spot} (walked : d.walkPath follow path steps = .ok spot) :
    Path.Fit path := by
  by_contra unfit
  obtain ⟨e, refused⟩ := exists_error_of_not_fit unfit
  rw [refused] at walked
  cases walked

/-- Where a path leads when all links are followed. -/
theorem locate_eq_ok_iff {l : Location} :
    d.locate true path = .ok (.existing l) ↔
      Path.Fit path ∧
        ∃ n ≤ maxLinks, Walks d.tree n (origin path d.workingDirectory) (Path.steps path) l := by
  constructor
  · intro located
    have fit := fit_of_walkPath located
    rw [locate, walkPath_of_fit fit] at located
    exact ⟨fit, walks_of_walk located⟩
  · rintro ⟨fit, n, within, route⟩
    rw [locate, walkPath_of_fit fit, route.walk_eq within]

theorem find_eq_ok_iff {l : Location} :
    d.find path = .ok l ↔ d.locate true path = .ok (.existing l) := by
  rw [find]
  cases d.locate true path with
  | error e => simp [bind, Except.bind]
  | ok spot =>
      cases spot <;>
        simp [bind, Except.bind, pure, Except.pure, throw, throwThe, MonadExceptOf.throw]

theorem node_eq_ok_iff {node : FileTree} :
    d.node path = .ok node ↔
      ∃ l, d.locate true path = .ok (.existing l) ∧ d.tree.get? l = some node := by
  simp only [← find_eq_ok_iff, Disk.node]
  cases d.find path with
  | error e => simp [bind, Except.bind]
  | ok l =>
      cases found : d.tree.get? l <;>
        simp [bind, Except.bind, pure, Except.pure, throw, throwThe, MonadExceptOf.throw, found]

theorem has_of_entryAt? {l : Location} {e : Entry}
    (located : d.locate true path = .ok (.existing l)) (stands : d.tree.entryAt? l = some e) :
    d.has path = true := by
  obtain ⟨node, found, -⟩ := Option.map_eq_some_iff.1 stands
  rw [has, node_eq_ok_iff.2 ⟨l, located, found⟩]
  rfl

theorem read_eq_ok_iff {contents : Bytes} :
    d.read path = .ok contents ↔
      ∃ l, d.locate true path = .ok (.existing l) ∧ d.tree.entryAt? l = some (.file contents) := by
  have atFile : d.read path = .ok contents ↔ d.node path = .ok (.file contents) := by
    rw [Disk.read]
    cases d.node path with
    | error e => simp [bind, Except.bind]
    | ok node =>
        cases node <;>
          simp [bind, Except.bind, pure, Except.pure, throw, throwThe, MonadExceptOf.throw]
  rw [atFile, node_eq_ok_iff]
  simp only [entryAt?_eq_file_iff]

/-- Nothing stands at a path, not even a link. -/
def Lacks (d : Disk) (path : Text) : Prop := ∀ l, d.locate false path ≠ .ok (.existing l)

/-! ## Sites -/

/-- Where a path that can be a file's leads: to a name in a directory. -/
structure Site (d : Disk) (path : Text) (directory : Location) (name : Text) : Prop where
  fit : Path.Fit path
  unslashed : Path.endsInSlash path = false
  isName : IsName name
  held : d.tree.entryAt? directory = some .directory
  route : ∃ first, Path.steps path = first ++ [name] ∧
    ∃ n ≤ maxLinks, Walks d.tree n (origin path d.workingDirectory) first directory

namespace Site

variable {directory : Location} {name : Text} (site : d.Site path directory name)
include site

theorem locate_eq :
    ∃ links, d.locate follow path = walk d.tree follow links directory [name] := by
  obtain ⟨first, steps, n, within, route⟩ := site.route
  refine ⟨maxLinks - n, ?_⟩
  rw [locate, walkPath_of_fit site.fit, steps]
  exact route.walk_append within (Or.inl (by simp))

theorem locate_missing (missing : d.tree.entryAt? (directory ++ [name]) = none) :
    d.locate follow path = .ok (.missing directory name) := by
  obtain ⟨links, located⟩ := site.locate_eq
  rw [located, walk_missing site.isName site.held missing]

theorem locate_file {contents : Bytes}
    (stands : d.tree.entryAt? (directory ++ [name]) = some (.file contents)) :
    d.locate follow path = .ok (.existing (directory ++ [name])) := by
  obtain ⟨links, located⟩ := site.locate_eq
  rw [located, walk_enter site.isName stands (by simp), walk_nil]

/-- If nothing is found at a path, its directory does not hold the name. -/
theorem entryAt?_eq_none (lacks : d.Lacks path) :
    d.tree.entryAt? (directory ++ [name]) = none := by
  obtain ⟨links, located⟩ := site.locate_eq
  cases stands : d.tree.entryAt? (directory ++ [name]) with
  | none => rfl
  | some e =>
      refine absurd located ?_
      rw [walk_name site.isName site.held, stands]
      cases e with
      | link target => exact lacks _
      | file contents => rw [walk_nil]; exact lacks _
      | directory => rw [walk_nil]; exact lacks _

theorem holder_eq : d.holder path = .ok (directory, name) := by
  obtain ⟨first, steps, n, within, route⟩ := site.route
  have walked : d.walkPath true path (first ++ [['.']]) = .ok (.existing directory) := by
    rw [walkPath_of_fit site.fit, route.walk_append within (Or.inr rfl), walk_stay site.held,
      walk_nil]
  rw [holder, Path.stripSlashes_of_unslashed site.unslashed, steps, List.dropLast_concat,
    List.getLast?_concat, walked]
  rfl

/-- A site stays where it is on a disk that differs in what its files hold. -/
theorem of_form {u : Disk} (same : u.workingDirectory = d.workingDirectory)
    (form : d.tree.KeepsForm u.tree) : u.Site path directory name := by
  obtain ⟨first, steps, n, within, route⟩ := site.route
  exact ⟨site.fit, site.unslashed, site.isName, form.directory site.held, first, steps, n, within,
    same ▸ route.of_form form⟩

/-- A site stays where it is on a disk that keeps every entry. -/
theorem of_kept {u : Disk} (same : u.workingDirectory = d.workingDirectory)
    (kept : ∀ m e, d.tree.entryAt? m = some e → u.tree.entryAt? m = some e) :
    u.Site path directory name :=
  site.of_form same fun m e stands => Or.inl (kept m e stands)

/-! ## What is done at a site -/

theorem create_missing (missing : d.tree.entryAt? (directory ++ [name]) = none) :
    d.create path = .ok (d.put (directory ++ [name]) (some (.file []))) := by
  rw [create, site.unslashed, site.locate_missing missing]
  rfl

/-- What is removed at a site is the entry itself: a link, not what it leads to. -/
theorem remove_leaf {e : Entry} (stands : d.tree.entryAt? (directory ++ [name]) = some e)
    (leaf : e ≠ .directory) : d.remove path = .ok (d.put (directory ++ [name]) none) := by
  have located : d.locate false path = .ok (.existing (directory ++ [name])) := by
    obtain ⟨links, located⟩ := @site.locate_eq _ false
    rw [located, walk_name site.isName site.held, stands]
    cases e with
    | link target => rfl
    | file contents => exact walk_nil
    | directory => exact absurd rfl leaf
  obtain ⟨node, found, rfl⟩ := Option.map_eq_some_iff.1 stands
  rw [Disk.remove, located]
  cases node with
  | link target => simp [bind, Except.bind, pure, Except.pure, found]
  | file contents => simp [bind, Except.bind, pure, Except.pure, found]
  | directory entries => exact absurd rfl leaf

section
variable {contents : Bytes} (stands : d.tree.entryAt? (directory ++ [name]) = some (.file contents))
include stands

theorem write_file (new : Bytes) :
    d.write path new = .ok (d.put (directory ++ [name]) (some (.file new))) := by
  have found : d.find path = .ok (directory ++ [name]) := by
    rw [find, site.locate_file stands]
    rfl
  rw [Disk.write, found]
  simp only [bind, Except.bind, entryAt?_eq_file_iff.1 stands]
  rfl

theorem remove_file : d.remove path = .ok (d.put (directory ++ [name]) none) :=
  site.remove_leaf stands nofun

theorem rename_file {target other : Text} (targetSite : d.Site target directory other)
    (replaced : d.tree.entryAt? (directory ++ [other]) ≠ some .directory) :
    d.rename path target =
      .ok ((d.put (directory ++ [name]) none).put (directory ++ [other])
        (some (.file contents))) := by
  have leaf : ∀ entries, d.tree.get? (directory ++ [other]) ≠ some (.directory entries) :=
    fun entries held => replaced (entryAt?_eq_directory_iff.2 ⟨entries, held⟩)
  have proper : (other = ['.'] || other = ['.', '.']) = false := by
    simp [targetSite.isName.ne_dot, targetSite.isName.ne_dots]
  have short : ¬maxName < other.byteLength := Nat.not_lt.2 targetSite.isName.short
  rw [Disk.rename, site.holder_eq, targetSite.holder_eq]
  simp only [bind, Except.bind, proper, entryAt?_eq_file_iff.1 stands, short,
    targetSite.unslashed]
  rfl

end

end Site

/-! ## From paths to sites -/

/-- A path from which a file is read has a site, and its name leads to that file. -/
theorem exists_site {contents : Bytes} (readable : d.read path = .ok contents) :
    ∃ directory name, d.Site path directory name ∧
      ∃ n l, n ≤ maxLinks ∧ Walks d.tree n directory [name] l ∧
        d.tree.entryAt? l = some (.file contents) := by
  obtain ⟨l, located, file⟩ := read_eq_ok_iff.1 readable
  obtain ⟨fit, n, within, route⟩ := locate_eq_ok_iff.1 located
  obtain none | ⟨first, name, steps⟩ := List.eq_nil_or_concat (Path.steps path)
  · exact absurd none (Path.steps_ne_nil fit.nonempty)
  rw [List.concat_eq_append] at steps
  rw [steps] at route
  obtain ⟨i, j, directory, rfl, front, back⟩ := route.exists_of_append
  have leaf : d.tree.entryAt? l ≠ some .directory := by simp [file]
  have isName := back.isName leaf
  have unslashed := (Path.exists_parts_of_steps steps isName.ne_dot).1
  exact ⟨directory, name,
    ⟨fit, unslashed, isName, back.start, first, steps, i, by omega, front⟩,
    j, l, by omega, back, file⟩

/-- The parent of a path that leads somewhere leads to a directory. -/
theorem exists_parent {l : Location} {parent : Text}
    (located : d.locate true path = .ok (.existing l)) (above : Path.parent? path = some parent)
    (nonempty : parent ≠ []) :
    ∃ m, d.locate true parent = .ok (.existing m) ∧ d.tree.entryAt? m = some .directory := by
  obtain ⟨fit, n, within, route⟩ := locate_eq_ok_iff.1 located
  have meaning : Path.body path ≠ [] := fun empty =>
    nonempty (Path.parent?_of_body_eq_nil empty above)
  obtain ⟨same, name, before, after, parts⟩ := Path.exists_parts meaning
  obtain rfl : same = parent := Option.some_inj.1 (parts.parent_eq.symm.trans above)
  rw [Path.steps_eq, parts.names_eq, List.append_assoc, List.append_assoc] at route
  obtain ⟨i, j, m, rfl, front, back⟩ := route.exists_of_append
  have directory := back.entryAt?_eq_directory (by simp)
  have whole : Walks d.tree i (origin same d.workingDirectory) (Path.steps same) m := by
    have origins : origin same d.workingDirectory = origin path d.workingDirectory := by
      rw [origin, origin, parts.absolute]
    rw [Path.steps_eq, origins]
    split
    · exact front.append (.stay directory .done)
    · rwa [List.append_nil]
  have short := fit.of_prefix parts.cut nonempty
  exact ⟨m, locate_eq_ok_iff.2 ⟨short, i, by omega, whole⟩, directory⟩

/-! ## Putting a file in and taking it out -/

/-- The disk with a file put at a location. -/
def putFile (d : Disk) (location : Location) (contents : Bytes) : Disk :=
  d.put location (some (.file contents))

section
variable {directory : Location} {name : Text} {contents : Bytes}

theorem entryAt?_putFile (held : d.tree.entryAt? directory = some .directory) :
    (d.putFile (directory ++ [name]) contents).tree.entryAt? (directory ++ [name]) =
      some (.file contents) := by
  rw [entryAt?_eq_file_iff]
  exact get?_set name held

theorem entryAt?_putFile_of_ne {location m : Location}
    (replaced : d.tree.entryAt? location ≠ some .directory) (apart : m ≠ location) :
    (d.putFile location contents).tree.entryAt? m = d.tree.entryAt? m := by
  refine entryAt?_set_of_ne d.tree ?_ replaced apart
  rintro new ⟨⟩ below deeper
  exact entryAt?_of_leaf (by simp [entry]) deeper

end

theorem put_put (first : FileTree) (location : Location) (node : Option FileTree) :
    (d.put location (some first)).put location node = d.put location node := by
  rw [put, put, put, set_set]

theorem put_none {location : Location} (missing : d.tree.entryAt? location = none) :
    d.put location none = d := by
  rw [put, set_get? location d.tree (Option.map_eq_none_iff.1 missing)]

end Disk

end PromptDoc
