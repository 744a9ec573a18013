/-
# PromptDoc.Proofs.FileTree.Opens — the file that is opened at a path

A path `Denotes` the entry of its last component. That is where a directory is made, a file
renamed to and an entry removed; but a file that is made, emptied or written is the one
that the path `Disk.LeadsTo`, beyond a link at its end. The two are one location unless a
link stands at the first (`Site.opened`).

`Disk.Opens` says that a file is there, or that its directory has room for one. Whatever
is made or written, is made or written there (`create_opens`, `write_opens`), and what
is written once more goes into the same file (`Opens.write_putFile`), since no link has
changed. What is removed then is the file, or the link to it (`Opens.remove_putFile`).
-/
import PromptDoc.Proofs.FileTree.Denotes

namespace PromptDoc

set_option autoImplicit false

namespace FileTree

variable {t : FileTree} {links : Nat} {here directory l m : Location} {steps more : List Text}
  {name : Text}

theorem Leads.append (leads : Leads t here steps m) (rest : Leads t m more l) :
    Leads t here (steps ++ more) l := by
  induction leads with
  | done => exact rest
  | stay _ ih => exact .stay (ih rest)
  | up _ ih => exact .up (ih rest)
  | enter name node _ ih => exact .enter name node (ih rest)
  | follow name stands _ ih =>
      have onward := ih rest
      rw [List.append_assoc] at onward
      exact .follow name stands onward

/-- A walk that stops at a missing name is led to it. -/
theorem leads_of_walk_missing (stops : walk t true links here steps = .ok (.missing directory name)) :
    Leads t here steps (directory ++ [name]) ∧ t.entryAt? directory = some .directory ∧
      t.entryAt? (directory ++ [name]) = none := by
  induction links, here, steps using walkInduction t with
  | done => cases walk_nil.symm.trans stops
  | lost elsewhere => cases (walk_lost elsewhere).symm.trans stops
  | stay held ih => exact (ih ((walk_stay held).symm.trans stops)).imp_left .stay
  | up held ih => exact (ih ((walk_up held).symm.trans stops)).imp_left .up
  | long dot dots long held => cases (walk_long dot dots long held).symm.trans stops
  | missing name held absent =>
      rw [walk_name name held, absent] at stops
      dsimp only at stops
      split at stops
      · rename_i last
        subst last
        cases stops
        exact ⟨.enter name (fun _ => by simp [absent]) .done, held, absent⟩
      · cases stops
  | @follow links here step steps target name stands ih =>
      cases links with
      | zero => cases (walk_tooManyLinks name stands (Or.inr rfl)).symm.trans stops
      | succ links =>
          have onward := (walk_follow name stands (Or.inr rfl)).symm.trans stops
          exact (ih links rfl onward).imp_left (.follow name stands)
  | enter name stands node ih =>
      refine (ih ((walk_enter name stands node).symm.trans stops)).imp_left (.enter name ?_)
      intro target link
      exact node target (Option.some_inj.1 (stands.symm.trans link))

end FileTree

namespace Disk

open FileTree

variable {d u : Disk} {path name : Text} {l directory : Location} {first : List Text}
  {contents : Bytes}

/-! ## Where a path leads -/

/-- The location that a path leads to, a link at its end followed, whether or not anything is
there. -/
def LeadsTo (d : Disk) (path : Text) (l : Location) : Prop :=
  Leads d.tree (origin path d.workingDirectory) (Path.steps path) l

/-- A path leads to one location at most. -/
theorem LeadsTo.unique {l' : Location} (leads : d.LeadsTo path l) (other : d.LeadsTo path l') :
    l = l' :=
  Leads.unique leads other

/-- Where a path leads depends on the links of a disk only. -/
theorem LeadsTo.of_links (leads : d.LeadsTo path l)
    (working : u.workingDirectory = d.workingDirectory)
    (same : ∀ m target,
      d.tree.entryAt? m = some (.link target) ↔ u.tree.entryAt? m = some (.link target)) :
    u.LeadsTo path l := by
  have elsewhere := Leads.of_links leads same
  rwa [← working] at elsewhere

/-- Where no link stands, a path leads to the location that it denotes. -/
theorem Site.leadsTo (site : d.Site path directory name)
    (node : ∀ target, d.tree.entryAt? (directory ++ [name]) ≠ some (.link target)) :
    d.LeadsTo path (directory ++ [name]) := by
  obtain ⟨first, steps, n, -, route⟩ := site.route
  rw [LeadsTo, steps]
  exact route.leads.append (.enter site.isName node .done)

/-! ## What can be opened -/

/-- A file stands where a path leads, or its directory has room for one. -/
structure Opens (d : Disk) (path : Text) (l : Location) : Prop where
  leads : d.LeadsTo path l
  held : ∃ directory name, l = directory ++ [name] ∧ d.tree.entryAt? directory = some .directory
  leaf : d.tree.entryAt? l = none ∨ ∃ old, d.tree.entryAt? l = some (.file old)

/-- A file that a path leads to can be opened. -/
theorem opens_of_file (located : d.locate true path = .ok (.existing l))
    (stands : d.tree.entryAt? l = some (.file contents)) : d.Opens path l := by
  obtain ⟨fit, n, -, route⟩ := locate_eq_ok_iff.1 located
  refine ⟨route.leads, ?_, Or.inr ⟨contents, stands⟩⟩
  obtain rfl | ⟨directory, name, rfl⟩ := List.eq_nil_or_concat l
  · -- The walk has set out from a directory, so the tree is no file.
    have start := route.entryAt?_eq_directory (Path.steps_ne_nil fit.nonempty)
    by_cases top : origin path d.workingDirectory = []
    · rw [top, stands] at start
      cases start
    · rw [← List.nil_append (origin path d.workingDirectory)] at start
      rw [entryAt?_above start top] at stands
      cases stands
  · rw [List.concat_eq_append] at *
    exact ⟨directory, name, rfl, entryAt?_above stands (by simp)⟩

/-- A name that a path leads to and that is missing can be opened. -/
theorem opens_of_missing (located : d.locate true path = .ok (.missing directory name)) :
    d.Opens path (directory ++ [name]) := by
  have walked := located
  rw [locate, walkPath_of_fit (fit_of_walkPath located)] at walked
  obtain ⟨leads, held, absent⟩ := leads_of_walk_missing walked
  exact ⟨leads, ⟨directory, name, rfl, held⟩, Or.inl absent⟩

/-- Where nothing stands, a path opens the location that it denotes. -/
theorem Site.opens (site : d.Site path directory name)
    (missing : d.tree.entryAt? (directory ++ [name]) = none) :
    d.Opens path (directory ++ [name]) :=
  ⟨site.leadsTo fun _ => by simp [missing], ⟨directory, name, rfl, site.held⟩, Or.inl missing⟩

/-- A file is made or emptied where its path can be opened. -/
theorem create_opens (created : d.create path = .ok u) :
    ∃ l, d.Opens path l ∧ u = d.putFile l [] := by
  rw [create] at created
  split at created
  · cases created
  cases located : d.locate true path with
  | error e => simp [located, bind, Except.bind] at created
  | ok spot =>
      rw [located] at created
      cases spot with
      | missing directory name =>
          cases created
          exact ⟨_, opens_of_missing located, rfl⟩
      | existing l =>
          simp only [bind, Except.bind, pure, Except.pure] at created
          split at created
          · rename_i old stands
            cases created
            exact ⟨l, opens_of_file located (entryAt?_eq_file_iff.2 stands), rfl⟩
          · cases created

/-- A file is written where its path can be opened. -/
theorem write_opens (wrote : d.write path contents = .ok u) :
    ∃ l, d.Opens path l ∧ u = d.putFile l contents := by
  rw [Disk.write, find] at wrote
  cases located : d.locate true path with
  | error e => simp [located, bind, Except.bind] at wrote
  | ok spot =>
      simp only [located, bind, Except.bind] at wrote
      cases spot with
      | missing directory name => cases wrote
      | existing l =>
          simp only [pure, Except.pure] at wrote
          split at wrote
          · rename_i old stands
            cases wrote
            exact ⟨l, opens_of_file located (entryAt?_eq_file_iff.2 stands), rfl⟩
          · cases wrote

namespace Opens

variable (opens : d.Opens path l)
include opens

theorem ne_directory : d.tree.entryAt? l ≠ some .directory := by
  rcases opens.leaf with absent | ⟨old, file⟩
  · simp [absent]
  · simp [file]

theorem ne_link (target : Text) : d.tree.entryAt? l ≠ some (.link target) := by
  rcases opens.leaf with absent | ⟨old, file⟩
  · simp [absent]
  · simp [file]

theorem entryAt?_putFile : (d.putFile l contents).tree.entryAt? l = some (.file contents) := by
  obtain ⟨directory, name, rfl, held⟩ := opens.held
  exact Disk.entryAt?_putFile held

theorem entryAt?_putFile_of_ne {m : Location} (apart : m ≠ l) :
    (d.putFile l contents).tree.entryAt? m = d.tree.entryAt? m :=
  Disk.entryAt?_putFile_of_ne opens.ne_directory apart

theorem keepsForm : d.tree.KeepsForm (d.putFile l contents).tree := by
  intro m e stands
  by_cases here : m = l
  · subst here
    rcases opens.leaf with absent | ⟨old, file⟩
    · simp [absent] at stands
    · exact Or.inr ⟨old, contents, Option.some_inj.1 (stands.symm.trans file),
        opens.entryAt?_putFile⟩
  · exact Or.inl ((opens.entryAt?_putFile_of_ne here).trans stands)

theorem link_iff (m : Location) (target : Text) :
    d.tree.entryAt? m = some (.link target) ↔
      (d.putFile l contents).tree.entryAt? m = some (.link target) := by
  by_cases here : m = l
  · subst here
    simp [opens.ne_link, opens.entryAt?_putFile]
  · rw [opens.entryAt?_putFile_of_ne here]

/-- What is written after a file was opened goes into that file. -/
theorem write_putFile {new : Bytes} (wrote : (d.putFile l contents).write path new = .ok u) :
    u = d.putFile l new := by
  obtain ⟨l', again, rfl⟩ := write_opens wrote
  have leads : (d.putFile l contents).LeadsTo path l := opens.leads.of_links rfl opens.link_iff
  obtain rfl := leads.unique again.leads
  rw [putFile, putFile, put_put, putFile]

/-- The file that is opened is the one at the site of its path, or a link stands there. -/
theorem eq_or_link (site : d.Site path directory name) :
    l = directory ++ [name] ∨
      ∃ target, d.tree.entryAt? (directory ++ [name]) = some (.link target) := by
  by_cases link : ∃ target, d.tree.entryAt? (directory ++ [name]) = some (.link target)
  · exact Or.inr link
  · exact Or.inl (opens.leads.unique (site.leadsTo (not_exists.1 link)))

end Opens

/-! ## Giving up on an opened file -/

/-- The disk after a file was written at one location and the entry at another removed: that
file itself or a link to it. -/
def givenUp (d : Disk) (opened denoted : Location) (contents : Bytes) : Disk :=
  (d.putFile opened contents).put denoted none

namespace Opens

variable (opens : d.Opens path l) (site : d.Site path directory name)
include opens site

/-- What stands at the site of an opened path is a file or a link. -/
theorem exists_leaf :
    ∃ e, e ≠ .directory ∧
      (d.putFile l contents).tree.entryAt? (directory ++ [name]) = some e := by
  rcases opens.eq_or_link site with rfl | ⟨target, link⟩
  · exact ⟨.file contents, nofun, opens.entryAt?_putFile⟩
  · exact ⟨.link target, nofun, (opens.link_iff _ _).1 link⟩

theorem remove_putFile :
    (d.putFile l contents).remove path = .ok (d.givenUp l (directory ++ [name]) contents) := by
  obtain ⟨e, leaf, stands⟩ := opens.exists_leaf site
  have there : (d.putFile l contents).Site path directory name :=
    site.of_form rfl opens.keepsForm
  exact there.remove_leaf stands leaf

end Opens

/-! ## Making a file -/

/-- A file is made in a directory that is there, by a name that is one. -/
theorem exists_site_of_create (created : d.create path = .ok u)
    (ends : Path.names path = first ++ [name]) (dot : name ≠ ['.']) (dots : name ≠ ['.', '.']) :
    ∃ directory, d.Site path directory name := by
  rw [create] at created
  split at created
  · cases created
  rename_i slashed
  have unslashed : Path.endsInSlash path = false := by simpa using slashed
  cases located : d.locate true path with
  | error e => simp [located, bind, Except.bind] at created
  | ok spot =>
      obtain ⟨fit, before, step, directory, steps, n, within, route, last⟩ :=
        exists_of_locate located
      obtain ⟨rfl, same⟩ : before = first ∧ [step] = [name] := by
        rw [Path.steps_eq, unslashed, ends] at steps
        exact List.append_inj' (by simpa using steps.symm) rfl
      obtain rfl := List.singleton_inj.1 same
      have held := entryAt?_of_walk_cons last
      have isName : IsName step := by
        refine ⟨dot, dots, Nat.le_of_not_lt fun long => ?_⟩
        rw [walk_long dot dots long held] at last
        cases last
      exact ⟨directory, fit, unslashed, isName, held, before, steps, n, within, route⟩

/-- Where a path denotes no file and no link, a file that is made there is a new one. -/
theorem create_inversion (created : d.create path = .ok u)
    (ends : Path.names path = first ++ [name]) (dot : name ≠ ['.']) (dots : name ≠ ['.', '.'])
    (clear : ∀ l, d.Denotes path l →
      d.tree.entryAt? l = none ∨ d.tree.entryAt? l = some .directory) :
    ∃ directory, d.Site path directory name ∧ d.tree.entryAt? (directory ++ [name]) = none ∧
      u = d.putFile (directory ++ [name]) [] := by
  obtain ⟨directory, site⟩ := exists_site_of_create created ends dot dots
  obtain ⟨l, opens, rfl⟩ := create_opens created
  have bare := clear _ site.denotes
  obtain rfl | ⟨target, link⟩ := opens.eq_or_link site
  · exact ⟨directory, site, bare.resolve_right opens.ne_directory, rfl⟩
  · simp [link] at bare

end Disk

end PromptDoc
