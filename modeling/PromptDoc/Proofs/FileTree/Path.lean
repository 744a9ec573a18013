/-
# PromptDoc.Proofs.FileTree.Path — what stands above the last component of a path

The parent of a path is cut out of its text and its steps are read off the whole of it.
`exists_parts` brings the two together: the steps of a path are those of its parent, some
dots, the last component, and some dots again. From it follows that a path which leads to a
file has its last component at the very end (`exists_parts_of_steps`).

A relative path read from another goes on where that one leads: its components come after the
other's (`names_join`).
-/
import Mathlib.Data.List.DropRight
import PromptDoc.FileTree.Locate
import PromptDoc.Proofs.Text.Bytes

namespace PromptDoc.Path

set_option autoImplicit false

/-- The components to walk, without the dot that a slash at the end stands for. -/
def names (path : Text) : List Text := (path.splitOn '/').filter (· ≠ [])

/-- Components that are dots. -/
def Dots (components : List Text) : Prop := ∀ c ∈ components, c = ['.']

theorem steps_eq (path : Text) :
    steps path = names path ++ if endsInSlash path then [['.']] else [] := rfl

theorem endsInSlash_iff {path : Text} :
    endsInSlash path = true ↔ ∃ front, path = front ++ ['/'] := by
  obtain rfl | ⟨front, c, rfl⟩ := List.eq_nil_or_concat path <;> simp [endsInSlash]

theorem endsInSlash_append (front : Text) {t : Text} (nonempty : t ≠ []) :
    endsInSlash (front ++ t) = endsInSlash t := by
  rw [endsInSlash, endsInSlash, List.getLast?_append_of_ne_nil _ nonempty]

/-! ## Components -/

theorem names_append_slash (a b : Text) : names (a ++ '/' :: b) = names a ++ names b := by
  rw [names, List.splitOn_append_cons_self, List.filter_append]
  rfl

theorem names_of_not_mem {component : Text} (free : '/' ∉ component) :
    names component = [component].filter (· ≠ []) := by
  rw [names, List.splitOn_eq_singleton free]

theorem names_slash (t : Text) : names ('/' :: t) = names t :=
  names_append_slash [] t

theorem slash_not_mem_of_mem_splitOn {t component : Text} (inside : component ∈ t.splitOn '/') :
    '/' ∉ component := by
  induction t generalizing component with
  | nil =>
      rw [List.splitOn_nil, List.mem_singleton] at inside
      simp [inside]
  | cons c t ih =>
      rw [List.splitOn_cons_eq_if_modifyHead] at inside
      obtain ⟨first, rest, split⟩ := List.exists_cons_of_ne_nil (List.splitOn_ne_nil '/' t)
      rw [split] at ih inside
      split at inside
      · rcases List.mem_cons.1 inside with rfl | later
        · simp
        · exact ih later
      · rename_i other
        rw [List.modifyHead_cons] at inside
        rcases List.mem_cons.1 inside with rfl | later
        · have free := ih List.mem_cons_self
          simpa [free] using fun same => other (by simp [← same])
        · exact ih (List.mem_cons_of_mem _ later)

theorem eq_slash_of_names_eq_nil {path : Text} (none : names path = []) :
    ∀ c ∈ path, c = '/' := by
  induction path with
  | nil => exact fun c inside => absurd inside List.not_mem_nil
  | cons first path ih =>
      by_cases slash : first = '/'
      · subst slash
        rw [names_slash] at none
        exact List.forall_mem_cons.2 ⟨rfl, ih none⟩
      · obtain ⟨c, rest, split⟩ := List.exists_cons_of_ne_nil (List.splitOn_ne_nil '/' path)
        rw [names, List.splitOn_cons_eq_if_modifyHead, if_neg (by simpa using slash), split] at none
        simp at none

/-- There is something to walk in every path but the empty one. -/
theorem steps_ne_nil {path : Text} (nonempty : path ≠ []) : steps path ≠ [] := by
  intro none
  rw [steps_eq, List.append_eq_nil_iff] at none
  have slash := eq_slash_of_names_eq_nil none.1 _ (List.getLast_mem nonempty)
  have slashed : endsInSlash path = true := by
    rw [endsInSlash, List.getLast?_eq_getLast_of_ne_nil nonempty, slash]
    rfl
  simp [slashed] at none

/-- The components of a text that was put together from components. -/
theorem names_intercalate {components : List Text} (free : ∀ c ∈ components, '/' ∉ c) :
    names (['/'].intercalate components) = components.filter (· ≠ []) := by
  induction components with
  | nil => rfl
  | cons c components ih =>
      have here := names_of_not_mem (free c List.mem_cons_self)
      have rest := ih fun c later => free c (List.mem_cons_of_mem _ later)
      cases components with
      | nil => rwa [List.intercalate_singleton]
      | cons next components =>
          rw [List.intercalate_cons_cons, List.append_assoc, List.singleton_append,
            names_append_slash, here, rest, ← List.filter_append]
          rfl

theorem intercalate_prefix {front components : List Text} (cut : front <+: components) :
    ['/'].intercalate front <+: ['/'].intercalate components := by
  induction front generalizing components with
  | nil => exact List.nil_prefix
  | cons c front ih =>
      obtain ⟨rest, rfl⟩ := cut
      cases front with
      | nil =>
          rw [List.intercalate_singleton, List.singleton_append]
          cases rest with
          | nil => exact (List.intercalate_singleton).symm ▸ List.prefix_rfl
          | cons next rest =>
              rw [List.intercalate_cons_cons, List.append_assoc]
              exact List.prefix_append _ _
      | cons next front =>
          rw [List.cons_append, List.cons_append, List.intercalate_cons_cons,
            List.intercalate_cons_cons, List.prefix_append_right_inj]
          exact ih (List.prefix_append _ _)

/-! ## The last component and what stands before it -/

theorem isAbsolute_of_prefix {p path : Text} (cut : p <+: path) (nonempty : p ≠ []) :
    isAbsolute p = isAbsolute path := by
  obtain ⟨c, rest, rfl⟩ := List.exists_cons_of_ne_nil nonempty
  obtain ⟨more, rfl⟩ := cut
  by_cases slash : c = '/'
  · subst slash
    rfl
  · simp [isAbsolute, slash]

theorem isAbsolute_take_baseLength (path : Text) :
    isAbsolute (path.take (baseLength path)) = isAbsolute path := by
  unfold baseLength
  split <;> simp_all [isAbsolute]

/-- The components of a path that goes on only up to some of its components. -/
theorem names_base {path : Text} {outer : List Text}
    (cut : outer <+: (path.drop (baseLength path)).splitOn '/') :
    names (path.take (baseLength path) ++ ['/'].intercalate outer) =
      names (path.take (baseLength path)) ++ outer.filter (· ≠ []) := by
  have free : ∀ c ∈ outer, '/' ∉ c := fun c inside =>
    slash_not_mem_of_mem_splitOn (cut.subset inside)
  have joined := names_intercalate free
  fun_cases baseLength path with
  | case1 t =>
      change names ('/' :: ['/'].intercalate outer) = _
      rw [names_slash, joined]
      rfl
  | case2 =>
      rcases List.prefix_cons_iff.1 cut with rfl | ⟨inner, rfl, none⟩
      · rfl
      · rw [List.prefix_nil.1 none]
        rfl
  | case3 t =>
      change outer <+: ('/' :: t).splitOn '/' at cut
      rw [List.splitOn_cons_eq_if_modifyHead, if_pos (by rfl)] at cut
      rcases List.prefix_cons_iff.1 cut with rfl | ⟨inner, rfl, -⟩
      · rfl
      · cases inner with
        | nil => rfl
        | cons c inner =>
            rw [List.intercalate_cons_cons] at joined ⊢
            change names (['.'] ++ '/' :: ['/'].intercalate (c :: inner)) = _
            rw [names_append_slash, ← names_slash, ← joined]
            rfl
  | case4 path _ _ _ =>
      change names ([] ++ _) = [] ++ _
      rwa [List.nil_append]

/-- What is taken off the end of components as idle are dots. -/
theorem exists_idle (components : List Text) :
    ∃ idle, components = components.rdropWhile isIdle ++ idle ∧ Dots (idle.filter (· ≠ [])) := by
  refine ⟨components.rtakeWhile isIdle, List.rdropWhile_append_rtakeWhile.symm, ?_⟩
  intro c inside
  obtain ⟨taken, nonempty⟩ := List.mem_filter.1 inside
  have idle := List.mem_rtakeWhile_imp taken
  simpa [isIdle, of_decide_eq_true nonempty] using idle

/-- Components that are not all idle are those of the parent, idle ones, the last one that
means something, and idle ones. -/
theorem exists_last {components : List Text} (nonempty : components.rdropWhile isIdle ≠ []) :
    ∃ between name trailing,
      components = (components.rdropWhile isIdle).dropLast.rdropWhile isIdle ++ between ++
        name :: trailing ∧
      (components.rdropWhile isIdle).getLast? = some name ∧ isIdle name = false ∧
      Dots (between.filter (· ≠ [])) ∧ Dots (trailing.filter (· ≠ [])) := by
  have solid := List.rdropWhile_last_not isIdle components nonempty
  obtain ⟨trailing, ending, dotsAfter⟩ := exists_idle components
  generalize components.rdropWhile isIdle = kept at *
  obtain ⟨between, middle, dotsBefore⟩ := exists_idle kept.dropLast
  refine ⟨between, kept.getLast nonempty, trailing, ?_, List.getLast?_eq_getLast_of_ne_nil nonempty,
    by simpa using solid, dotsBefore, dotsAfter⟩
  calc components = kept.dropLast ++ [kept.getLast nonempty] ++ trailing := by
        rw [List.dropLast_append_getLast, ← ending]
    _ = (kept.dropLast.rdropWhile isIdle ++ between) ++ [kept.getLast nonempty] ++ trailing := by
        rw [← middle]
    _ = _ := by rw [List.append_assoc, List.singleton_append]

/-- The parts of a path: the path of what holds its last component, that component, and
the dots on either side of it. -/
structure Parts (path parent name : Text) (before after : List Text) : Prop where
  parent_eq : parent? path = some parent
  last_eq : (body path).getLast? = some name
  names_eq : names path = names parent ++ before ++ name :: after
  dots_before : Dots before
  dots_after : Dots after
  cut : parent <+: path
  absolute : isAbsolute parent = isAbsolute path
  free : '/' ∉ name

theorem parent?_of_body {path : Text} (nonempty : body path ≠ []) :
    parent? path = some (path.take (baseLength path) ++
      ['/'].intercalate ((body path).dropLast.rdropWhile isIdle)) := by
  rw [parent?]
  split
  · rename_i none
    exact absurd none nonempty
  · rfl

theorem parent?_of_body_eq_nil {path parent : Text} (empty : body path = [])
    (above : parent? path = some parent) : parent = [] := by
  rw [parent?, empty] at above
  simp only [Option.ite_none_right_eq_some, Option.some_inj] at above
  exact above.2.symm

/-- A path with a component that means something has parts. -/
theorem exists_parts {path : Text} (nonempty : body path ≠ []) :
    ∃ parent name before after, Parts path parent name before after := by
  have parent := parent?_of_body nonempty
  have whole : path.take (baseLength path) ++
      ['/'].intercalate ((path.drop (baseLength path)).splitOn '/') = path := by
    rw [List.intercalate_splitOn, List.take_append_drop]
  have free : ∀ c ∈ (path.drop (baseLength path)).splitOn '/', '/' ∉ c := fun c =>
    slash_not_mem_of_mem_splitOn
  have named := fun outer => @names_base path outer
  have absolute := isAbsolute_take_baseLength path
  have trimmed : body path = ((path.drop (baseLength path)).splitOn '/').rdropWhile isIdle := rfl
  rw [trimmed] at nonempty
  obtain ⟨between, name, trailing, split, last, solid, before, after⟩ := exists_last nonempty
  rw [← trimmed] at split last
  generalize (path.drop (baseLength path)).splitOn '/' = components at *
  generalize (body path).dropLast.rdropWhile isIdle = outer at *
  generalize path.take (baseLength path) = base at *
  have outerCut : outer <+: components := by
    rw [split, List.append_assoc]
    exact List.prefix_append _ _
  have cut : base ++ ['/'].intercalate outer <+: path := by
    rw [← whole, List.prefix_append_right_inj]
    exact intercalate_prefix outerCut
  have nonempty : name ≠ [] := by
    rintro rfl
    cases solid
  refine ⟨base ++ ['/'].intercalate outer, name, between.filter (· ≠ []),
    trailing.filter (· ≠ []), parent, last, ?_, before, after, cut, ?_,
    free name (by simp [split])⟩
  · have all := named components List.prefix_rfl
    rw [whole] at all
    rw [all, named outer outerCut, split]
    simp [nonempty]
  · by_cases none : base ++ ['/'].intercalate outer = []
    · rw [none, ← absolute, (List.append_eq_nil_iff.1 none).1]
    · exact isAbsolute_of_prefix cut none

theorem dots_base (path : Text) : Dots (names (path.take (baseLength path))) := by
  have dot : Dots (names ['.']) := fun c inside => List.mem_singleton.1 inside
  have none : Dots (names []) := fun c inside => absurd inside (by simp [names])
  fun_cases baseLength path with
  | case1 t => exact none
  | case2 => exact dot
  | case3 t => exact dot
  | case4 path _ _ _ => exact none

theorem dots_of_body_eq_nil {path : Text} (empty : body path = []) : Dots (names path) := by
  have named := @names_base path _ List.prefix_rfl
  rw [List.intercalate_splitOn, List.take_append_drop] at named
  obtain ⟨idle, split, dots⟩ := exists_idle ((path.drop (baseLength path)).splitOn '/')
  have none : ((path.drop (baseLength path)).splitOn '/').rdropWhile isIdle = [] := empty
  rw [none, List.nil_append] at split
  rw [named, split]
  exact List.forall_mem_append.2 ⟨dots_base path, dots⟩

/-- What leads to something else than a directory has its last component at its very end. -/
theorem exists_parts_of_steps {path name : Text} {first : List Text}
    (ends : steps path = first ++ [name]) (solid : name ≠ ['.']) :
    endsInSlash path = false ∧ ∃ parent before, Parts path parent name before [] := by
  have last : (steps path).getLast? = some name := by
    rw [ends, List.getLast?_concat]
  have unslashed : endsInSlash path = false := by
    by_contra slashed
    rw [steps_eq, if_pos (by simpa using slashed), List.getLast?_concat] at last
    exact solid (Option.some_inj.1 last).symm
  rw [steps_eq, unslashed, if_neg (by simp), List.append_nil] at last
  refine ⟨unslashed, ?_⟩
  have nonempty : body path ≠ [] := fun empty =>
    solid (dots_of_body_eq_nil empty name (List.mem_of_getLast? last))
  obtain ⟨parent, other, before, after, parts⟩ := exists_parts nonempty
  rw [parts.names_eq, List.getLast?_append_of_ne_nil _ (by simp)] at last
  obtain rfl | ⟨rest, dot, rfl⟩ := List.eq_nil_or_concat after
  · rw [List.getLast?_singleton, Option.some_inj] at last
    exact ⟨parent, before, last ▸ parts⟩
  · rw [List.concat_eq_append, ← List.cons_append, List.getLast?_concat, Option.some_inj] at last
    exact absurd (parts.dots_after name (by simp [last])) solid

/-! ## Slashes at the end -/

theorem names_of_slashes {slashes : Text} (all : ∀ c ∈ slashes, c = '/') : names slashes = [] := by
  induction slashes with
  | nil => rfl
  | cons c slashes ih =>
      rw [all c List.mem_cons_self, names_slash]
      exact ih fun c later => all c (List.mem_cons_of_mem _ later)

theorem names_append_slashes (t : Text) {slashes : Text} (all : ∀ c ∈ slashes, c = '/') :
    names (t ++ slashes) = names t := by
  cases slashes with
  | nil => rw [List.append_nil]
  | cons c slashes =>
      rw [all c List.mem_cons_self, names_append_slash,
        names_of_slashes fun c later => all c (List.mem_cons_of_mem _ later), List.append_nil]

theorem stripSlashes_eq (path : Text) :
    stripSlashes path =
      if path.rdropWhile (· = '/') = [] then path.take 1 else path.rdropWhile (· = '/') := by
  rw [stripSlashes]
  split
  · rename_i none
    exact (if_pos none).symm
  · rename_i other
    exact (if_neg other).symm

theorem stripSlashes_of_unslashed {path : Text} (unslashed : endsInSlash path = false) :
    stripSlashes path = path := by
  have kept : path.rdropWhile (· = '/') = path := by
    rw [List.rdropWhile_eq_self_iff]
    intro nonempty slash
    rw [endsInSlash, List.getLast?_eq_getLast_of_ne_nil nonempty] at unslashed
    simp_all
  rw [stripSlashes_eq, kept]
  split
  · rename_i none
    simp [none]
  · rfl

theorem stripSlashes_prefix (path : Text) : stripSlashes path <+: path := by
  rw [stripSlashes_eq]
  split
  · exact List.take_prefix 1 path
  · exact List.rdropWhile_prefix _ path

theorem stripSlashes_ne_nil {path : Text} (nonempty : path ≠ []) : stripSlashes path ≠ [] := by
  rw [stripSlashes_eq]
  split
  · simpa using nonempty
  · assumption

theorem names_stripSlashes (path : Text) : names (stripSlashes path) = names path := by
  have split : path.rdropWhile (· = '/') ++ path.rtakeWhile (· = '/') = path :=
    List.rdropWhile_append_rtakeWhile
  have all : ∀ c ∈ path.rtakeWhile (· = '/'), c = '/' := fun c inside => by
    simpa using List.mem_rtakeWhile_imp inside
  rw [stripSlashes_eq]
  split
  · rename_i none
    rw [none, List.nil_append] at split
    rw [split] at all
    rw [names_of_slashes all, names_of_slashes fun c inside => all c (List.mem_of_mem_take inside)]
  · rw [← names_append_slashes _ all, split]

/-- Walking a path begins with walking it without the slashes at its end. -/
theorem exists_steps_stripSlashes (path : Text) :
    ∃ more, steps path = steps (stripSlashes path) ++ more := by
  have split : path.rdropWhile (· = '/') ++ path.rtakeWhile (· = '/') = path :=
    List.rdropWhile_append_rtakeWhile
  have all : ∀ c ∈ path.rtakeWhile (· = '/'), c = '/' := fun c inside => by
    simpa using List.mem_rtakeWhile_imp inside
  have kept := List.rdropWhile_last_not (· = '/') path
  rw [stripSlashes_eq]
  generalize path.rdropWhile (· = '/') = front at *
  generalize path.rtakeWhile (· = '/') = slashes at *
  subst split
  split
  · rename_i none
    subst none
    cases slashes with
    | nil => exact ⟨[], rfl⟩
    | cons c rest =>
        obtain rfl := all c List.mem_cons_self
        have slashed : endsInSlash ([] ++ '/' :: rest) = true := by
          rw [endsInSlash, List.nil_append,
            List.getLast?_eq_getLast_of_ne_nil (List.cons_ne_nil _ _), all _ (List.getLast_mem _)]
          rfl
        refine ⟨[], ?_⟩
        rw [steps_eq, slashed, names_append_slashes [] all]
        rfl
  · rename_i some
    have unslashed : endsInSlash front = false := by
      rw [endsInSlash, List.getLast?_eq_getLast_of_ne_nil some]
      simpa using kept some
    refine ⟨if endsInSlash (front ++ slashes) then [['.']] else [], ?_⟩
    rw [steps_eq, steps_eq front, names_append_slashes front all, unslashed]
    simp

/-! ## A path read from another -/

section
variable {base path : Text} (relative : isAbsolute path = false)
include relative

/-- A relative path is joined to another by a slash, unless that one is empty or ends in one. -/
theorem join_eq :
    join base path = base ++ path ∧ (base = [] ∨ endsInSlash base = true) ∨
      join base path = base ++ '/' :: path ∧ base ≠ [] := by
  rw [join, relative, if_neg (by simp)]
  split
  · rename_i open'
    exact Or.inl ⟨rfl, by simpa using open'⟩
  · rename_i closed
    refine Or.inr ⟨by simp, ?_⟩
    rintro rfl
    exact closed rfl

theorem names_join : names (join base path) = names base ++ names path := by
  rcases @join_eq base path relative with ⟨joined, rfl | slashed⟩ | ⟨joined, -⟩
  · rw [joined, List.nil_append]
    rfl
  · obtain ⟨front, rfl⟩ := endsInSlash_iff.1 slashed
    rw [joined, List.append_assoc, List.singleton_append, names_append_slash, names_append_slash]
    simp [names]
  · rw [joined, names_append_slash]

theorem endsInSlash_join (nonempty : path ≠ []) :
    endsInSlash (join base path) = endsInSlash path := by
  rcases @join_eq base path relative with ⟨joined, -⟩ | ⟨joined, -⟩
  · rw [joined, endsInSlash_append base nonempty]
  · rw [joined, List.append_cons, endsInSlash_append _ nonempty]

theorem isAbsolute_join : isAbsolute (join base path) = isAbsolute base := by
  rcases @join_eq base path relative with ⟨joined, rfl | slashed⟩ | ⟨joined, some⟩
  · rw [joined, List.nil_append, relative]
    rfl
  · have some : base ≠ [] := by
      rintro rfl
      cases slashed
    rw [joined, isAbsolute_of_prefix (List.prefix_append _ _) some]
  · rw [joined, isAbsolute_of_prefix (List.prefix_append _ _) some]

end

/-! ## Names as paths -/

section
variable {name : Text} (free : '/' ∉ name)
include free

theorem isAbsolute_of_free : isAbsolute name = false := by
  cases name with
  | nil => rfl
  | cons c rest =>
      have other : c ≠ '/' := fun same => free (by simp [same])
      simp [isAbsolute, other]

theorem endsInSlash_of_free : endsInSlash name = false := by
  by_contra slashed
  obtain ⟨front, rfl⟩ := endsInSlash_iff.1 (Bool.of_not_eq_false slashed)
  simp at free

theorem names_of_free (nonempty : name ≠ []) : names name = [name] := by
  rw [names_of_not_mem free]
  simp [nonempty]

end

end PromptDoc.Path
