/-
# PromptDoc.Proofs.FileTree.Denotes — the entry that a path stands for

`Walks` needs every directory on the way to be there. `Leads` does not: it reads a path as
if they all were, so that only the links of the tree count. A path `Disk.Denotes` the
location at which its last component would stand: the same one before and after the
directories above it are made, since those are no links (`Denotes.of_links`).

A directory is made, and a file renamed to, at the location that its path denotes:
`makeDirectory_inversion` and `rename_inversion` say where, and how the disk is then.
-/
import PromptDoc.Proofs.FileTree.Site

namespace PromptDoc

set_option autoImplicit false

namespace FileTree

/-- The steps lead from one location to another, whether or not anything stands there: an
entry that is no link is taken for a directory. -/
inductive Leads (t : FileTree) : Location → List Text → Location → Prop
  | done {here} : Leads t here [] here
  | stay {here steps l} : Leads t here steps l → Leads t here (['.'] :: steps) l
  | up {here steps l} : Leads t here.dropLast steps l → Leads t here (['.', '.'] :: steps) l
  | enter {here step steps l} : IsName step →
      (∀ target, t.entryAt? (here ++ [step]) ≠ some (.link target)) →
      Leads t (here ++ [step]) steps l → Leads t here (step :: steps) l
  | follow {here step steps l target} : IsName step →
      t.entryAt? (here ++ [step]) = some (.link target) →
      Leads t (origin target here) (Path.steps target ++ steps) l → Leads t here (step :: steps) l

variable {t u : FileTree} {follow : Bool} {links n : Nat} {here directory l : Location}
  {steps first more : List Text} {step name : Text} {spot : Spot}

/-- A walk that arrives is led there. -/
theorem Walks.leads (route : Walks t n here steps l) : Leads t here steps l := by
  induction route with
  | done => exact .done
  | stay _ _ ih => exact .stay ih
  | up _ _ ih => exact .up ih
  | enter name stands node _ ih =>
      refine .enter name (fun target link => node target ?_) ih
      exact Option.some_inj.1 (stands.symm.trans link)
  | follow name stands _ ih => exact .follow name stands ih

namespace Leads

/-- Steps lead to one location only. -/
theorem unique {l' : Location} (leads : Leads t here steps l) (other : Leads t here steps l') :
    l = l' := by
  induction leads with
  | done =>
      cases other
      rfl
  | stay _ ih =>
      cases other with
      | stay other => exact ih other
      | enter name _ _ => exact absurd rfl name.ne_dot
      | follow name _ _ => exact absurd rfl name.ne_dot
  | up _ ih =>
      cases other with
      | up other => exact ih other
      | enter name _ _ => exact absurd rfl name.ne_dots
      | follow name _ _ => exact absurd rfl name.ne_dots
  | enter name node _ ih =>
      cases other with
      | stay _ => exact absurd rfl name.ne_dot
      | up _ => exact absurd rfl name.ne_dots
      | enter _ _ other => exact ih other
      | follow _ stands _ => exact absurd stands (node _)
  | follow name stands _ ih =>
      cases other with
      | stay _ => exact absurd rfl name.ne_dot
      | up _ => exact absurd rfl name.ne_dots
      | enter _ node _ => exact absurd stands (node _)
      | follow _ other rest =>
          cases Option.some_inj.1 (stands.symm.trans other)
          exact ih rest

/-- Two trees with the same links lead to the same locations. -/
theorem of_links (leads : Leads t here steps l)
    (same : ∀ m target, t.entryAt? m = some (.link target) ↔ u.entryAt? m = some (.link target)) :
    Leads u here steps l := by
  induction leads with
  | done => exact .done
  | stay _ ih => exact .stay ih
  | up _ ih => exact .up ih
  | enter name node _ ih =>
      exact .enter name (fun target link => node target ((same _ _).2 link)) ih
  | follow name stands _ ih => exact .follow name ((same _ _).1 stands) ih

end Leads

/-! ## Where a walk stops -/

theorem entryAt?_of_walk_cons (arrives : walk t follow links here (step :: steps) = .ok spot) :
    t.entryAt? here = some .directory := by
  by_contra elsewhere
  cases (walk_lost elsewhere).symm.trans arrives

/-- Steps that do not arrive cannot be gone on from. -/
theorem exists_error_of_lost (further : more ≠ [])
    (lost : ∀ m, walk t true links here first ≠ .ok (.existing m)) :
    ∃ e, walk t follow links here (first ++ more) = .error e := by
  have deeper : ∀ steps, steps ++ more ≠ [] := fun steps => by simp [further]
  induction links, here, first using walkInduction t with
  | @done links here => exact absurd walk_nil (lost here)
  | lost elsewhere => exact ⟨_, walk_lost elsewhere⟩
  | stay held ih =>
      rw [List.cons_append, walk_stay held]
      exact ih fun m arrives => lost m ((walk_stay held).trans arrives)
  | up held ih =>
      rw [List.cons_append, walk_up held]
      exact ih fun m arrives => lost m ((walk_up held).trans arrives)
  | long dot dots long held => exact ⟨_, walk_long dot dots long held⟩
  | missing name held absent =>
      rw [List.cons_append, walk_name name held, absent]
      exact ⟨_, if_neg (deeper _)⟩
  | @follow links here step steps target name stands ih =>
      cases links with
      | zero => exact ⟨_, walk_tooManyLinks name stands (Or.inl (deeper steps))⟩
      | succ links =>
          rw [List.cons_append, walk_follow name stands (Or.inl (deeper steps)), ← List.append_assoc]
          exact ih links rfl fun m arrives =>
            lost m ((walk_follow name stands (Or.inr rfl)).trans arrives)
  | enter name stands node ih =>
      rw [List.cons_append, walk_enter name stands node]
      exact ih fun m arrives => lost m ((walk_enter name stands node).trans arrives)

/-- A walk over two stretches of steps goes over the second from where the first leads. -/
theorem exists_of_walk_append (further : more ≠ [])
    (arrives : walk t follow links here (first ++ more) = .ok spot) :
    ∃ n ≤ links, ∃ m, Walks t n here first m ∧ walk t follow (links - n) m more = .ok spot := by
  by_cases lost : ∀ m, walk t true links here first ≠ .ok (.existing m)
  · obtain ⟨e, failed⟩ := @exists_error_of_lost _ follow _ _ _ _ further lost
    rw [failed] at arrives
    cases arrives
  · obtain ⟨m, found⟩ := not_forall_not.1 lost
    obtain ⟨n, within, route⟩ := walks_of_walk found
    exact ⟨n, within, m, route, (route.walk_append within (Or.inl further)).symm.trans arrives⟩

/-- What a walk over a single name finds missing is that name. -/
theorem missing_of_walk_name
    (walked : walk t follow links here [step] = .ok (.missing directory name))
    (last : follow = true → ∀ target, t.entryAt? (here ++ [step]) ≠ some (.link target)) :
    directory = here ∧ name = step ∧ IsName step ∧ t.entryAt? (here ++ [step]) = none := by
  have held := entryAt?_of_walk_cons walked
  by_cases dot : step = ['.']
  · subst dot
    rw [walk_stay held, walk_nil] at walked
    cases walked
  by_cases dots : step = ['.', '.']
  · subst dots
    rw [walk_up held, walk_nil] at walked
    cases walked
  by_cases long : maxName < step.byteLength
  · rw [walk_long dot dots long held] at walked
    cases walked
  have isName : IsName step := ⟨dot, dots, Nat.not_lt.1 long⟩
  rw [walk_name isName held] at walked
  cases stands : t.entryAt? (here ++ [step]) with
  | none =>
      rw [stands] at walked
      cases walked
      exact ⟨rfl, rfl, isName, rfl⟩
  | some e =>
      rw [stands] at walked last
      cases e with
      | file contents => simp [walk_nil] at walked
      | directory => simp [walk_nil] at walked
      | link target =>
          cases follow with
          | true => exact absurd rfl (last rfl target)
          | false => simp at walked

end FileTree

namespace Disk

open FileTree

variable {d u : Disk} {follow : Bool} {path source name : Text} {l directory : Location}
  {first : List Text} {spot : Spot}

/-- The location of the entry that a path stands for, whether or not it is there. A path
that ends in `.` or `..` stands for none. -/
def Denotes (d : Disk) (path : Text) (l : Location) : Prop :=
  ∃ first name directory, Path.names path = first ++ [name] ∧ IsName name ∧
    Leads d.tree (origin path d.workingDirectory) first directory ∧ l = directory ++ [name]

/-- A path denotes one location at most. -/
theorem Denotes.unique {l' : Location} (denotes : d.Denotes path l) (other : d.Denotes path l') :
    l = l' := by
  obtain ⟨first, name, directory, names, -, leads, rfl⟩ := denotes
  obtain ⟨first', name', directory', names', -, leads', rfl⟩ := other
  obtain ⟨rfl, same⟩ := List.append_inj' (names.symm.trans names') rfl
  rw [leads.unique leads', same]

/-- A path with a site denotes its name there. -/
theorem Site.denotes (site : d.Site path directory name) :
    d.Denotes path (directory ++ [name]) := by
  obtain ⟨first, steps, n, -, route⟩ := site.route
  rw [Path.steps_eq, site.unslashed] at steps
  exact ⟨first, name, directory, by simpa using steps, site.isName, route.leads, rfl⟩

/-- What a path denotes depends on the links of a disk only. -/
theorem Denotes.of_links (denotes : d.Denotes path l)
    (working : u.workingDirectory = d.workingDirectory)
    (same : ∀ m target,
      d.tree.entryAt? m = some (.link target) ↔ u.tree.entryAt? m = some (.link target)) :
    u.Denotes path l := by
  obtain ⟨first, name, directory, names, isName, leads, place⟩ := denotes
  exact ⟨first, name, directory, names, isName, working ▸ leads.of_links same, place⟩

/-! ## What is made at a path -/

/-- A path leads somewhere by its last step, from where the steps before it lead. -/
theorem exists_of_locate (located : d.locate follow path = .ok spot) :
    Path.Fit path ∧ ∃ first step directory, Path.steps path = first ++ [step] ∧
      ∃ n ≤ maxLinks, Walks d.tree n (origin path d.workingDirectory) first directory ∧
        walk d.tree follow (maxLinks - n) directory [step] = .ok spot := by
  have fit := fit_of_walkPath located
  obtain none | ⟨first, step, steps⟩ := List.eq_nil_or_concat (Path.steps path)
  · exact absurd none (Path.steps_ne_nil fit.nonempty)
  rw [List.concat_eq_append] at steps
  rw [locate, walkPath_of_fit fit, steps] at located
  obtain ⟨n, within, directory, route, last⟩ := exists_of_walk_append (by simp) located
  exact ⟨fit, first, step, directory, steps, n, within, route, last⟩

/-- A directory is made where nothing stood, at the location that its path denotes. -/
theorem makeDirectory_inversion (made : d.makeDirectory path = .ok u) :
    ∃ directory name, d.Denotes path (directory ++ [name]) ∧
      d.tree.entryAt? directory = some .directory ∧
      d.tree.entryAt? (directory ++ [name]) = none ∧
      u = d.put (directory ++ [name]) (some (.directory [])) := by
  rw [makeDirectory] at made
  cases located : d.locate false (Path.stripSlashes path) with
  | error e => simp [located, bind, Except.bind] at made
  | ok spot =>
      cases spot with
      | existing l =>
          simp [located, bind, Except.bind, throw, throwThe, MonadExceptOf.throw] at made
      | missing directory name =>
          simp only [located, bind, Except.bind, pure, Except.pure, Except.ok.injEq] at made
          obtain ⟨fit, first, step, m, steps, n, within, route, last⟩ := exists_of_locate located
          obtain ⟨rfl, rfl, isName, missing⟩ := missing_of_walk_name last nofun
          have held := entryAt?_of_walk_cons last
          have unslashed := (Path.exists_parts_of_steps steps isName.ne_dot).1
          have names : Path.names path = first ++ [name] := by
            rw [← Path.names_stripSlashes, ← steps, Path.steps_eq, unslashed]
            simp
          have origins : origin (Path.stripSlashes path) d.workingDirectory =
              origin path d.workingDirectory := by
            rw [origin, origin,
              Path.isAbsolute_of_prefix (Path.stripSlashes_prefix path) fit.nonempty]
          have leads : Leads d.tree (origin path d.workingDirectory) first directory :=
            origins ▸ route.leads
          exact ⟨directory, name, ⟨first, name, directory, names, isName, leads, rfl⟩, held, missing,
            made.symm⟩

/-- The directory of the last component is there, and the components before lead to it. -/
theorem holder_inversion (found : d.holder path = .ok (directory, name)) :
    d.tree.entryAt? directory = some .directory ∧
      ∃ first n, Path.steps (Path.stripSlashes path) = first ++ [name] ∧
        Walks d.tree n (origin path d.workingDirectory) first directory := by
  rw [holder] at found
  generalize Path.steps (Path.stripSlashes path) = steps at *
  cases walked : d.walkPath true path (steps.dropLast ++ [['.']]) with
  | error e => simp [walked, bind, Except.bind] at found
  | ok spot =>
      rw [walked] at found
      cases spot with
      | missing _ _ => simp [bind, Except.bind, throw, throwThe, MonadExceptOf.throw] at found
      | existing l =>
          obtain rfl | ⟨first, last, rfl⟩ := List.eq_nil_or_concat steps
          · simp [bind, Except.bind, throw, throwThe, MonadExceptOf.throw] at found
          rw [List.concat_eq_append] at *
          simp only [List.getLast?_concat, List.dropLast_concat, bind, Except.bind, pure,
            Except.pure, Except.ok.injEq, Prod.mk.injEq] at found walked
          obtain ⟨rfl, rfl⟩ := found
          rw [walkPath_of_fit (fit_of_walkPath walked)] at walked
          obtain ⟨n, -, m, route, stay⟩ := exists_of_walk_append (by simp) walked
          have held := entryAt?_of_walk_cons stay
          rw [walk_stay held, walk_nil] at stay
          cases stay
          exact ⟨held, first, n, rfl, route⟩

/-- A file takes the place of what its new path denotes, which is no directory. -/
theorem rename_inversion {hidden : Text} {contents : Bytes}
    (site : d.Site source directory hidden)
    (stands : d.tree.entryAt? (directory ++ [hidden]) = some (.file contents))
    (renamed : d.rename source path = .ok u) :
    ∃ above name, d.Denotes path (above ++ [name]) ∧ d.tree.entryAt? above = some .directory ∧
      d.tree.entryAt? (above ++ [name]) ≠ some .directory ∧
      u = (d.put (directory ++ [hidden]) none).put (above ++ [name]) (some (.file contents)) := by
  simp only [Disk.rename, site.holder_eq, bind, Except.bind] at renamed
  cases found : d.holder path with
  | error e => simp [found] at renamed
  | ok place =>
      obtain ⟨above, name⟩ := place
      obtain ⟨held, first, n, steps, route⟩ := holder_inversion found
      simp only [found, entryAt?_eq_file_iff.1 stands] at renamed
      by_cases dotted : name = ['.'] ∨ name = ['.', '.']
      · simp [dotted, throw, throwThe, MonadExceptOf.throw] at renamed
      by_cases long : maxName < name.byteLength
      · simp [dotted, long, throw, throwThe, MonadExceptOf.throw] at renamed
      by_cases slashed : Path.endsInSlash path
      · have leaf : (FileTree.file contents).isDirectory = false := rfl
        simp [dotted, long, slashed, leaf, throw, throwThe, MonadExceptOf.throw] at renamed
      by_cases replaced : d.tree.entryAt? (above ++ [name]) = some .directory
      · obtain ⟨entries, there⟩ := entryAt?_eq_directory_iff.1 replaced
        simp [dotted, long, slashed, there, throw, throwThe, MonadExceptOf.throw] at renamed
      have proper : (name = ['.'] || name = ['.', '.']) = false := by simpa using dotted
      have isName : IsName name := by
        obtain ⟨dot, dots⟩ := not_or.1 dotted
        exact ⟨dot, dots, Nat.not_lt.1 long⟩
      have unslashed : Path.endsInSlash path = false := by simpa using slashed
      have names : Path.names path = first ++ [name] := by
        rw [Path.stripSlashes_of_unslashed unslashed, Path.steps_eq, unslashed] at steps
        simpa using steps
      have denotes : d.Denotes path (above ++ [name]) :=
        ⟨first, name, above, names, isName, route.leads, rfl⟩
      refine ⟨above, name, denotes, held, replaced, ?_⟩
      simp only [proper, long, unslashed, Bool.false_and, Bool.false_eq_true, if_false] at renamed
      split at renamed
      · cases renamed
      · cases renamed
        rfl

end Disk

end PromptDoc
