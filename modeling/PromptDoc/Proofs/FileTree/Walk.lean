/-
# PromptDoc.Proofs.FileTree.Walk — walks that arrive

`Walks t n here steps l` says that the steps lead from `here` to `l` in a tree, with `n`
links followed on the way, the one at the end included. A walk over a path arrives exactly
where a derivation with few enough links says (`walks_of_walk`, `Walks.walk_eq`), and what
arrives can be cut and joined at every step (`Walks.append`, `Walks.exists_of_append`).
What is shown of all walks is shown step by step for the links that are left, and for fewer
links first (`walkInduction`).

A walk looks at the entries that it comes by and at nothing else, and not into files. So it
stays as it is when something is put where nothing was (`Walks.of_kept`) and when a file is
given other contents (`Walks.of_form`), and a walk to a directory also when a file, or a link
to one, is replaced (`Walks.of_replaced`): it cannot have come by there, since a walk that
does goes on from a file.
-/
import PromptDoc.Proofs.FileTree.Tree

namespace PromptDoc

set_option autoImplicit false

namespace FileTree

structure IsName (step : Text) : Prop where
  ne_dot : step ≠ ['.']
  ne_dots : step ≠ ['.', '.']
  short : step.byteLength ≤ maxName

/-- Where the target of a link is read from. -/
def origin (target : Text) (here : Location) : Location :=
  if Path.isAbsolute target then [] else here

/-- The steps lead from one location to another, with so many links followed. -/
inductive Walks (t : FileTree) : Nat → Location → List Text → Location → Prop
  | done {here} : Walks t 0 here [] here
  | stay {n here steps l} : t.entryAt? here = some .directory → Walks t n here steps l →
      Walks t n here (['.'] :: steps) l
  | up {n here steps l} : t.entryAt? here = some .directory → Walks t n here.dropLast steps l →
      Walks t n here (['.', '.'] :: steps) l
  | enter {n here step steps l e} : IsName step → t.entryAt? (here ++ [step]) = some e →
      (∀ target, e ≠ .link target) → Walks t n (here ++ [step]) steps l →
      Walks t n here (step :: steps) l
  | follow {n here step steps l target} : IsName step →
      t.entryAt? (here ++ [step]) = some (.link target) →
      Walks t n (origin target here) (Path.steps target ++ steps) l →
      Walks t (n + 1) here (step :: steps) l

/-- Every entry of a tree is one of another, though a file may hold something else there. -/
def KeepsForm (t u : FileTree) : Prop :=
  ∀ m e, t.entryAt? m = some e →
    u.entryAt? m = some e ∨ ∃ old new, e = .file old ∧ u.entryAt? m = some (.file new)

/-- What a name in a directory leads to is not a directory. -/
def IsLeaf (t : FileTree) (directory : Location) (name : Text) : Prop :=
  ∀ n l, Walks t n directory [name] l → t.entryAt? l ≠ some .directory

variable {t u : FileTree} {follow : Bool} {links n : Nat} {here l : Location}
  {steps : List Text} {step : Text}

theorem KeepsForm.directory (form : t.KeepsForm u) (held : t.entryAt? l = some .directory) :
    u.entryAt? l = some .directory := by
  rcases form _ _ held with same | ⟨_, _, file, -⟩
  · exact same
  · cases file

theorem KeepsForm.link {target : Text} (form : t.KeepsForm u)
    (stands : t.entryAt? l = some (.link target)) : u.entryAt? l = some (.link target) := by
  rcases form _ _ stands with same | ⟨_, _, file, -⟩
  · exact same
  · cases file

/-! ## One step -/

theorem walk_nil : walk t follow links here [] = .ok (.existing here) := by
  cases links <;> rfl

/-- What a walk does at a step, with as many links left as before. -/
theorem walk_cons :
    walk t follow links here (step :: steps) =
      match t.get? here with
      | some (.directory entries) =>
        if step = ['.'] then walk t follow links here steps
        else if step = ['.', '.'] then walk t follow links here.dropLast steps
        else if maxName < step.byteLength then .error .nameTooLong
        else
          match child? step entries with
          | none => if steps = [] then .ok (.missing here step) else .error .notFound
          | some (.link target) =>
            if steps = [] && !follow then .ok (.existing (here ++ [step]))
            else
              match links with
              | 0 => .error .tooManyLinks
              | links + 1 => walk t follow links (origin target here) (Path.steps target ++ steps)
          | some _ => walk t follow links (here ++ [step]) steps
      | _ => .error .notDirectory := by
  cases links <;> rfl

theorem walk_lost (elsewhere : t.entryAt? here ≠ some .directory) :
    walk t follow links here (step :: steps) = .error .notDirectory := by
  rw [walk_cons]
  split
  · rename_i entries held
    exact absurd (entryAt?_eq_directory_iff.2 ⟨entries, held⟩) elsewhere
  · rfl

theorem walk_stay (directory : t.entryAt? here = some .directory) :
    walk t follow links here (['.'] :: steps) = walk t follow links here steps := by
  obtain ⟨entries, held⟩ := entryAt?_eq_directory_iff.1 directory
  rw [walk_cons, held]
  simp

theorem walk_up (directory : t.entryAt? here = some .directory) :
    walk t follow links here (['.', '.'] :: steps) = walk t follow links here.dropLast steps := by
  obtain ⟨entries, held⟩ := entryAt?_eq_directory_iff.1 directory
  rw [walk_cons, held]
  simp

/-- What a name leads to depends on what its directory has under it. -/
theorem walk_name (name : IsName step) (directory : t.entryAt? here = some .directory) :
    walk t follow links here (step :: steps) =
      match t.entryAt? (here ++ [step]) with
      | none => if steps = [] then .ok (.missing here step) else .error .notFound
      | some (.link target) =>
        if steps = [] && !follow then .ok (.existing (here ++ [step]))
        else
          match links with
          | 0 => .error .tooManyLinks
          | links + 1 => walk t follow links (origin target here) (Path.steps target ++ steps)
      | some _ => walk t follow links (here ++ [step]) steps := by
  obtain ⟨entries, held⟩ := entryAt?_eq_directory_iff.1 directory
  have inside : t.entryAt? (here ++ [step]) = (child? step entries).map entry := by
    rw [entryAt?, get?_concat step held]
  rw [walk_cons, held, inside]
  simp only [name.ne_dot, name.ne_dots, Nat.not_lt.2 name.short, if_false]
  cases child? step entries with
  | none => rfl
  | some node => cases node <;> rfl

theorem walk_long (dot : step ≠ ['.']) (dots : step ≠ ['.', '.'])
    (long : maxName < step.byteLength) (directory : t.entryAt? here = some .directory) :
    walk t follow links here (step :: steps) = .error .nameTooLong := by
  obtain ⟨entries, held⟩ := entryAt?_eq_directory_iff.1 directory
  rw [walk_cons, held]
  simp [dot, dots, long]

theorem walk_missing (name : IsName step) (directory : t.entryAt? here = some .directory)
    (missing : t.entryAt? (here ++ [step]) = none) :
    walk t follow links here [step] = .ok (.missing here step) := by
  rw [walk_name name directory, missing]
  rfl

theorem walk_enter {e : Entry} (name : IsName step) (stands : t.entryAt? (here ++ [step]) = some e)
    (node : ∀ target, e ≠ .link target) :
    walk t follow links here (step :: steps) = walk t follow links (here ++ [step]) steps := by
  rw [walk_name name (entryAt?_above stands (by simp)), stands]
  cases e with
  | link target => exact absurd rfl (node target)
  | file contents => rfl
  | directory => rfl

theorem walk_follow {target : Text} (name : IsName step)
    (stands : t.entryAt? (here ++ [step]) = some (.link target))
    (further : steps ≠ [] ∨ follow = true) :
    walk t follow (links + 1) here (step :: steps) =
      walk t follow links (origin target here) (Path.steps target ++ steps) := by
  rw [walk_name name (entryAt?_above stands (by simp)), stands]
  rcases further with more | rfl
  · simp [more]
  · simp

theorem walk_tooManyLinks {target : Text} (name : IsName step)
    (stands : t.entryAt? (here ++ [step]) = some (.link target))
    (further : steps ≠ [] ∨ follow = true) :
    walk t follow 0 here (step :: steps) = .error .tooManyLinks := by
  rw [walk_name name (entryAt?_above stands (by simp)), stands]
  rcases further with more | rfl
  · simp [more]
  · simp

/-- A walk takes its steps one by one, and those of a link with one link fewer to go. -/
@[elab_as_elim]
theorem walkInduction (t : FileTree) {P : Nat → Location → List Text → Prop}
    (done : ∀ {links here}, P links here [])
    (lost : ∀ {links here step steps}, t.entryAt? here ≠ some .directory →
      P links here (step :: steps))
    (stay : ∀ {links here steps}, t.entryAt? here = some .directory → P links here steps →
      P links here (['.'] :: steps))
    (up : ∀ {links here steps}, t.entryAt? here = some .directory → P links here.dropLast steps →
      P links here (['.', '.'] :: steps))
    (long : ∀ {links here steps} {step : Text}, step ≠ ['.'] → step ≠ ['.', '.'] →
      maxName < step.byteLength → t.entryAt? here = some .directory →
      P links here (step :: steps))
    (missing : ∀ {links here step steps}, IsName step → t.entryAt? here = some .directory →
      t.entryAt? (here ++ [step]) = none → P links here (step :: steps))
    (follow : ∀ {links here step steps target}, IsName step →
      t.entryAt? (here ++ [step]) = some (.link target) →
      (∀ fewer, links = fewer + 1 → P fewer (origin target here) (Path.steps target ++ steps)) →
      P links here (step :: steps))
    (enter : ∀ {links here step steps e}, IsName step → t.entryAt? (here ++ [step]) = some e →
      (∀ target, e ≠ .link target) → P links (here ++ [step]) steps → P links here (step :: steps))
    (links : Nat) (here : Location) (steps : List Text) : P links here steps := by
  induction links using Nat.strongRecOn generalizing here steps with
  | ind links fewer =>
      induction steps generalizing here with
      | nil => exact done
      | cons step steps ih =>
          by_cases held : t.entryAt? here = some .directory
          · by_cases dot : step = ['.']
            · exact dot ▸ stay held (ih here)
            by_cases dots : step = ['.', '.']
            · exact dots ▸ up held (ih here.dropLast)
            by_cases short : step.byteLength ≤ maxName
            · have name : IsName step := ⟨dot, dots, short⟩
              cases stands : t.entryAt? (here ++ [step]) with
              | none => exact missing name held stands
              | some e =>
                  cases e with
                  | link target =>
                      exact follow name stands fun n count => fewer n (by omega) _ _
                  | file contents => exact enter name stands nofun (ih _)
                  | directory => exact enter name stands nofun (ih _)
            · exact long dot dots (Nat.lt_of_not_le short) held
          · exact lost held

/-! ## Walks and derivations -/

theorem Walks.start (route : Walks t n here (step :: steps) l) :
    t.entryAt? here = some .directory := by
  cases route with
  | stay directory _ => exact directory
  | up directory _ => exact directory
  | enter _ stands _ _ => exact entryAt?_above stands (by simp)
  | follow _ stands _ => exact entryAt?_above stands (by simp)

/-- A walk that arrives has a derivation. -/
theorem walks_of_walk (arrives : walk t true links here steps = .ok (.existing l)) :
    ∃ n ≤ links, Walks t n here steps l := by
  induction links, here, steps using walkInduction t with
  | @done links here =>
      cases walk_nil.symm.trans arrives
      exact ⟨0, Nat.zero_le _, .done⟩
  | lost elsewhere => cases (walk_lost elsewhere).symm.trans arrives
  | stay held ih =>
      obtain ⟨n, within, route⟩ := ih ((walk_stay held).symm.trans arrives)
      exact ⟨n, within, .stay held route⟩
  | up held ih =>
      obtain ⟨n, within, route⟩ := ih ((walk_up held).symm.trans arrives)
      exact ⟨n, within, .up held route⟩
  | long dot dots long held => cases (walk_long dot dots long held).symm.trans arrives
  | missing name held absent =>
      rw [walk_name name held, absent] at arrives
      dsimp only at arrives
      split at arrives <;> cases arrives
  | @follow links here step steps target name stands ih =>
      cases links with
      | zero => cases (walk_tooManyLinks name stands (Or.inr rfl)).symm.trans arrives
      | succ links =>
          obtain ⟨n, within, route⟩ :=
            ih links rfl ((walk_follow name stands (Or.inr rfl)).symm.trans arrives)
          exact ⟨n + 1, Nat.succ_le_succ within, .follow name stands route⟩
  | enter name stands node ih =>
      obtain ⟨n, within, route⟩ := ih ((walk_enter name stands node).symm.trans arrives)
      exact ⟨n, within, .enter name stands node route⟩

/-- Names lead to what stands below a location by them, if that is no link: nor is then
anything on the way. -/
theorem walks_of_entryAt? {names : Location} {e : Entry}
    (stands : t.entryAt? (here ++ names) = some e) (node : ∀ target, e ≠ .link target)
    (isName : ∀ name ∈ names, IsName name) : Walks t 0 here names (here ++ names) := by
  induction names generalizing here with
  | nil => simpa using Walks.done
  | cons name names ih =>
      rw [List.append_cons] at stands ⊢
      have rest := ih stands fun n later => isName n (List.mem_cons_of_mem _ later)
      have here := isName name List.mem_cons_self
      by_cases last : names = []
      · subst last
        rw [List.append_nil] at stands
        exact .enter here stands node rest
      · exact .enter here (entryAt?_above stands last) nofun rest

namespace Walks

/-- A walk over steps that lead somewhere goes on from there. A link at their end is
followed if there are more steps, or if links at the end of the walk are. -/
theorem walk_append {m : Location} {more : List Text} (route : Walks t n here steps m)
    (within : n ≤ links) (further : more ≠ [] ∨ follow = true) :
    walk t follow links here (steps ++ more) = walk t follow (links - n) m more := by
  induction route generalizing links with
  | done => rfl
  | stay directory _ ih => rw [List.cons_append, walk_stay directory, ih within]
  | up directory _ ih => rw [List.cons_append, walk_up directory, ih within]
  | enter name stands node _ ih => rw [List.cons_append, walk_enter name stands node, ih within]
  | @follow n here step steps l target name stands _ ih =>
      obtain ⟨links, rfl⟩ := Nat.exists_eq_succ_of_ne_zero (Nat.ne_zero_of_lt within)
      have deeper : steps ++ more ≠ [] ∨ follow = true :=
        further.imp_left fun nonempty => by simp [nonempty]
      rw [List.cons_append, walk_follow name stands deeper, ← List.append_assoc,
        ih (Nat.le_of_succ_le_succ within), Nat.succ_sub_succ]

/-- A walk that follows links arrives where a derivation with few enough links says. -/
theorem walk_eq (route : Walks t n here steps l) (within : n ≤ links) :
    walk t true links here steps = .ok (.existing l) := by
  have whole : walk t true links here (steps ++ []) = walk t true (links - n) l [] :=
    route.walk_append within (Or.inr rfl)
  rwa [List.append_nil, walk_nil] at whole

/-- Where a derivation leads there is something also for a walk that does not follow a
link at the end. -/
theorem exists_walk (route : Walks t n here steps l) (within : n ≤ links) :
    ∃ l', walk t false links here steps = .ok (.existing l') := by
  induction route generalizing links with
  | done => exact ⟨_, walk_nil⟩
  | stay directory _ ih =>
      rw [walk_stay directory]
      exact ih within
  | up directory _ ih =>
      rw [walk_up directory]
      exact ih within
  | enter name stands node _ ih =>
      rw [walk_enter name stands node]
      exact ih within
  | @follow n here step steps l target name stands _ ih =>
      obtain ⟨links, rfl⟩ := Nat.exists_eq_succ_of_ne_zero (Nat.ne_zero_of_lt within)
      by_cases last : steps = []
      · subst last
        refine ⟨here ++ [step], ?_⟩
        rw [walk_name name (entryAt?_above stands (by simp)), stands]
        rfl
      · rw [walk_follow name stands (Or.inl last)]
        exact ih (Nat.le_of_succ_le_succ within)

/-! ## Cutting and joining -/

theorem append {k : Nat} {m : Location} {more : List Text} (route : Walks t n here steps m)
    (rest : Walks t k m more l) : Walks t (n + k) here (steps ++ more) l := by
  induction route with
  | done => rwa [Nat.zero_add]
  | stay directory _ ih => exact .stay directory (ih rest)
  | up directory _ ih => exact .up directory (ih rest)
  | enter name stands node _ ih => exact .enter name stands node (ih rest)
  | follow name stands _ ih =>
      have onward := ih rest
      rw [List.append_assoc] at onward
      rw [Nat.add_right_comm]
      exact .follow name stands onward

/-- What leads somewhere over two stretches of steps leads to a place between them. -/
theorem exists_of_append {first more : List Text} (route : Walks t n here (first ++ more) l) :
    ∃ i j m, n = i + j ∧ Walks t i here first m ∧ Walks t j m more l := by
  generalize whole : first ++ more = steps at route
  induction route generalizing first with
  | @done here =>
      obtain ⟨rfl, rfl⟩ := List.append_eq_nil_iff.1 whole
      exact ⟨0, 0, here, rfl, .done, .done⟩
  | stay directory rest ih =>
      rcases List.append_eq_cons_iff.1 whole with ⟨rfl, rfl⟩ | ⟨first, rfl, split⟩
      · exact ⟨0, _, _, (Nat.zero_add _).symm, .done, .stay directory rest⟩
      · obtain ⟨i, j, m, count, front, back⟩ := ih split.symm
        exact ⟨i, j, m, count, .stay directory front, back⟩
  | up directory rest ih =>
      rcases List.append_eq_cons_iff.1 whole with ⟨rfl, rfl⟩ | ⟨first, rfl, split⟩
      · exact ⟨0, _, _, (Nat.zero_add _).symm, .done, .up directory rest⟩
      · obtain ⟨i, j, m, count, front, back⟩ := ih split.symm
        exact ⟨i, j, m, count, .up directory front, back⟩
  | enter name stands node rest ih =>
      rcases List.append_eq_cons_iff.1 whole with ⟨rfl, rfl⟩ | ⟨first, rfl, split⟩
      · exact ⟨0, _, _, (Nat.zero_add _).symm, .done, .enter name stands node rest⟩
      · obtain ⟨i, j, m, count, front, back⟩ := ih split.symm
        exact ⟨i, j, m, count, .enter name stands node front, back⟩
  | @follow n here step steps l target name stands rest ih =>
      rcases List.append_eq_cons_iff.1 whole with ⟨rfl, rfl⟩ | ⟨first, rfl, split⟩
      · exact ⟨0, _, _, (Nat.zero_add _).symm, .done, .follow name stands rest⟩
      · have joined : Path.steps target ++ first ++ more = Path.steps target ++ steps := by
          rw [List.append_assoc, split]
        obtain ⟨i, j, m, count, front, back⟩ := ih joined
        exact ⟨i + 1, j, m, by omega, .follow name stands front, back⟩

/-- Steps lead to one place only. -/
theorem unique {k : Nat} {l' : Location} (route : Walks t n here steps l)
    (other : Walks t k here steps l') : l = l' := by
  have first := route.walk_eq (Nat.le_max_left n k)
  rw [other.walk_eq (Nat.le_max_right n k)] at first
  cases first
  rfl

/-- Only from a directory do steps lead on. -/
theorem entryAt?_eq_directory (route : Walks t n here steps l) (further : steps ≠ []) :
    t.entryAt? here = some .directory := by
  obtain ⟨step, steps, rfl⟩ := List.exists_cons_of_ne_nil further
  exact route.start

/-- A step that leads to something else than a directory is a name. -/
theorem isName (route : Walks t n here [step] l) (leaf : t.entryAt? l ≠ some .directory) :
    IsName step := by
  cases route with
  | stay held rest =>
      cases rest
      exact absurd held leaf
  | up held rest =>
      cases rest
      obtain rfl | ⟨above, last, rfl⟩ := List.eq_nil_or_concat here
      · exact absurd held leaf
      · rw [List.concat_eq_append] at held
        rw [List.concat_eq_append, List.dropLast_concat] at leaf
        exact absurd (entryAt?_above held (by simp)) leaf
  | enter name _ _ _ => exact name
  | follow name _ _ => exact name

/-- Without links, what a walk enters are its steps: it may go up first, and then leads on by names
among them. -/
theorem exists_entered (route : Walks t n here steps l)
    (linkless : ∀ m target, t.entryAt? m ≠ some (.link target)) :
    ∃ kept entered, kept <+: here ∧ l = kept ++ entered ∧ ∀ name ∈ entered, name ∈ steps := by
  induction route with
  | @done here => exact ⟨here, [], List.prefix_rfl, (List.append_nil here).symm, nofun⟩
  | stay _ _ ih =>
      obtain ⟨kept, entered, cut, place, among⟩ := ih
      exact ⟨kept, entered, cut, place, fun name inside => List.mem_cons_of_mem _ (among name inside)⟩
  | up _ _ ih =>
      obtain ⟨kept, entered, cut, place, among⟩ := ih
      exact ⟨kept, entered, cut.trans (List.dropLast_prefix _), place,
        fun name inside => List.mem_cons_of_mem _ (among name inside)⟩
  | @enter n here step steps l e _ _ _ _ ih =>
      obtain ⟨kept, entered, cut, place, among⟩ := ih
      rcases List.prefix_concat_iff.1 cut with rfl | cut
      · refine ⟨here, step :: entered, List.prefix_rfl, by simpa using place, ?_⟩
        exact List.forall_mem_cons.2
          ⟨List.mem_cons_self, fun name inside => List.mem_cons_of_mem _ (among name inside)⟩
      · exact ⟨kept, entered, cut, place,
          fun name inside => List.mem_cons_of_mem _ (among name inside)⟩
  | follow _ link _ _ => exact absurd link (linkless _ _)

/-! ## Walks in changed trees -/

/-- Where every directory and every link is kept and every file is a file, walks lead where
they led. -/
theorem of_form (route : Walks t n here steps l) (form : t.KeepsForm u) :
    Walks u n here steps l := by
  induction route with
  | done => exact .done
  | stay directory _ ih => exact .stay (form.directory directory) ih
  | up directory _ ih => exact .up (form.directory directory) ih
  | enter name stands node _ ih =>
      rcases form _ _ stands with same | ⟨old, new, rfl, file⟩
      · exact .enter name same node ih
      · exact .enter name file (fun _ => nofun) ih
  | follow name stands _ ih => exact .follow name (form.link stands) ih

/-- Where every entry is kept, walks lead where they led. -/
theorem of_kept (route : Walks t n here steps l)
    (kept : ∀ m e, t.entryAt? m = some e → u.entryAt? m = some e) : Walks u n here steps l :=
  route.of_form fun m e stands => Or.inl (kept m e stands)

/-- Where the entry of a name is replaced that leads to no directory, walks to directories
lead where they led. -/
theorem of_replaced {directory : Location} {file : Text} (route : Walks t n here steps l)
    (arrives : t.entryAt? l = some .directory) (name : IsName file)
    (kept : ∀ m, m ≠ directory ++ [file] → u.entryAt? m = t.entryAt? m)
    (leaf : IsLeaf t directory file) :
    Walks u n here steps l := by
  have directories : ∀ m, t.entryAt? m = some .directory → u.entryAt? m = some .directory := by
    intro m held
    rw [kept m, held]
    rintro rfl
    exact leaf 0 _ (.enter name held (by simp) .done) held
  -- A walk that came by the file would go on from there, or end there.
  have apart : ∀ {n here step steps}, Walks t n here (step :: steps) l →
      here ++ [step] ≠ directory ++ [file] := by
    intro n here step steps route same
    obtain ⟨rfl, last⟩ := List.append_inj' same rfl
    obtain rfl := List.singleton_inj.1 last
    have cut : Walks t n here ([step] ++ steps) l := route
    obtain ⟨i, j, m, -, front, back⟩ := cut.exists_of_append
    refine leaf i m front ?_
    by_cases further : steps = []
    · subst further
      cases back
      exact arrives
    · exact back.entryAt?_eq_directory further
  induction route with
  | done => exact .done
  | stay held _ ih => exact .stay (directories _ held) (ih arrives apart)
  | up held _ ih => exact .up (directories _ held) (ih arrives apart)
  | enter name stands node rest ih =>
      have other := apart (.enter name stands node rest)
      exact .enter name ((kept _ other).trans stands) node (ih arrives apart)
  | follow name stands rest ih =>
      have other := apart (.follow name stands rest)
      exact .follow name ((kept _ other).trans stands) (ih arrives apart)

end Walks

end FileTree

end PromptDoc
