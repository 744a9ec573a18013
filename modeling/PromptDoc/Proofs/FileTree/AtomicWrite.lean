/-
# PromptDoc.Proofs.FileTree.AtomicWrite — a file is replaced as a whole or not at all

The hidden file has its site beside that of the file (`site_temporary`), so what is put
there and taken away again leaves the disk as it was (`remove_putFile`), and what is
renamed from there stands in the place of the file alone (`rename_putFile`). Each part of a
write is settled for itself: making the directory ready keeps the disk (`ensures_prepare`),
filling and installing either get on or restore it, and hold what is held of the disks with
a part of the contents in the hidden file (`secures_fill`, `secures_install`).
`ensures_atomicWrite` puts them together, and `Disk.ensures_atomicWrite_of_read` says what
that comes to for a file that can be read.
-/
import PromptDoc.FileTree.AtomicWrite
import PromptDoc.Proofs.FileTree.Script
import PromptDoc.Proofs.FileTree.Site

namespace PromptDoc.AtomicWrite

set_option autoImplicit false

open FileTree Script

variable {d : Disk} {path temporary : Text} {directory : Location} {name hidden : Text}
  {process : Nat} {refusable : Step → Prop}

/-! ## The hidden file -/

theorem slash_not_mem_hiddenName (free : '/' ∉ name) : '/' ∉ hiddenName process name := by
  have digits : '/' ∉ Text.ofNat process := by
    intro inside
    have digit := Nat.isDigit_of_mem_toDigits (by decide) (by decide) inside
    revert digit
    decide
  simp [hiddenName, free, digits]

theorem length_hiddenName : name.length + 2 < (hiddenName process name).length := by
  have ending : ".tmp".toList.length = 4 := rfl
  simp only [hiddenName, List.length_append, List.length_singleton, ending]
  omega

theorem hiddenName_ne {short : Text} (le : short.length ≤ 2) : hiddenName process name ≠ short := by
  rintro rfl
  have long := @length_hiddenName name process
  omega

/-- A path with a site has parts, and a hidden file is named after them. -/
theorem exists_parts_of_site (site : d.Site path directory name) :
    ∃ parent before, Path.Parts path parent name before [] ∧
      temporary? process path = some (Path.join parent (hiddenName process name)) := by
  obtain ⟨first, steps, -⟩ := site.route
  obtain ⟨-, parent, before, parts⟩ := Path.exists_parts_of_steps steps site.isName.ne_dot
  have fileName : Path.fileName? path = some name := by
    rw [Path.fileName?, parts.last_eq]
    exact if_neg site.isName.ne_dots
  refine ⟨parent, before, parts, ?_⟩
  rw [temporary?, fileName, parts.parent_eq]
  rfl

/-- The hidden file leads to the directory of the file. -/
theorem route_temporary (site : d.Site path directory name)
    (beside : temporary? process path = some temporary) :
    Path.endsInSlash temporary = false ∧
      ∃ first, Path.steps temporary = first ++ [hiddenName process name] ∧
        ∃ n ≤ maxLinks, Walks d.tree n (origin temporary d.workingDirectory) first directory := by
  obtain ⟨first, steps, n, within, route⟩ := site.route
  obtain ⟨parent, before, parts, named⟩ := @exists_parts_of_site _ _ _ _ process site
  obtain rfl := Option.some_inj.1 (named.symm.trans beside)
  obtain rfl : Path.names parent ++ before = first := by
    rw [Path.steps_eq, site.unslashed, parts.names_eq] at steps
    exact List.append_cancel_right (by simpa using steps)
  -- The parent leads to the same directory: only dots stand between it and the name.
  obtain ⟨i, j, m, rfl, front, back⟩ := route.exists_of_append
  obtain rfl := back.eq_of_dots parts.dots_before
  have free := @slash_not_mem_hiddenName name process parts.free
  have nonempty : hiddenName process name ≠ [] := hiddenName_ne (by simp)
  have relative := Path.isAbsolute_of_free free
  have unslashed : Path.endsInSlash (Path.join parent (hiddenName process name)) = false :=
    (Path.endsInSlash_join relative nonempty).trans (Path.endsInSlash_of_free free)
  refine ⟨unslashed, Path.names parent, ?_, i, by omega, ?_⟩
  · rw [Path.steps_eq, unslashed, Path.names_join relative, Path.names_of_free free nonempty]
    simp
  · rwa [origin, Path.isAbsolute_join relative, parts.absolute]

/-- The hidden file has its site beside that of the file, or its path or its name is too
long. -/
theorem site_temporary (beside : temporary? process path = some temporary) :
    (∀ u : Disk, u.Site path directory name →
        u.Site temporary directory (hiddenName process name)) ∨
      ∃ e, ∀ (u : Disk) (follow : Bool), u.Site path directory name →
        u.locate follow temporary = .error e := by
  have dot : hiddenName process name ≠ ['.'] := hiddenName_ne (by simp)
  have dots : hiddenName process name ≠ ['.', '.'] := hiddenName_ne (by simp)
  by_cases fit : Path.Fit temporary
  · by_cases short : (hiddenName process name).byteLength ≤ maxName
    · refine Or.inl fun u site => ?_
      obtain ⟨unslashed, route⟩ := route_temporary site beside
      exact ⟨fit, unslashed, ⟨dot, dots, short⟩, site.held, route⟩
    · refine Or.inr ⟨.nameTooLong, fun u follow site => ?_⟩
      obtain ⟨-, first, steps, n, within, route⟩ := route_temporary site beside
      rw [Disk.locate, Disk.walkPath_of_fit fit, steps,
        route.walk_append within (Or.inl (by simp)),
        walk_long dot dots (Nat.lt_of_not_le short) site.held]
  · obtain ⟨e, refused⟩ := Disk.exists_error_of_not_fit fit
    exact Or.inr ⟨e, fun u follow _ => refused u follow _⟩

/-! ## The directory above -/

/-- Whatever happens, the disk stays as it is. -/
def Keeps {α : Type} (refusable : Step → Prop) (script : Script α) (d : Disk) : Prop :=
  script.Ensures refusable (fun _ after => after = d) d

theorem Keeps.bind {α β : Type} {script : Script α} {next : α → Script β}
    (first : Keeps refusable script d) (rest : ∀ a, Keeps refusable (next a) d) :
    Keeps refusable (script >>= next) d :=
  ensures_bind.2 (Ensures.mono first fun a _ same => same ▸ rest a)

theorem keeps_pure {α : Type} (a : α) : Keeps refusable (pure a) d := ensures_pure.2 rfl

theorem keeps_isDirectory : Keeps refusable (ask (.isDirectory path)) d := ⟨rfl, fun _ _ => rfl⟩

theorem makeDirectory_eq {l : Location} (arrives : d.locate true path = .ok (.existing l)) :
    d.makeDirectory path = .error .alreadyExists := by
  obtain ⟨fit, n, within, route⟩ := Disk.locate_eq_ok_iff.1 arrives
  obtain ⟨more, steps⟩ := Path.exists_steps_stripSlashes path
  rw [steps] at route
  obtain ⟨i, j, m, rfl, front, -⟩ := route.exists_of_append
  obtain ⟨m', found⟩ := front.exists_walk (show i ≤ maxLinks by omega)
  have stripped := Path.stripSlashes_prefix path
  have nonempty := Path.stripSlashes_ne_nil fit.nonempty
  have located : d.locate false (Path.stripSlashes path) = .ok (.existing m') := by
    rw [Disk.locate, Disk.walkPath_of_fit (fit.of_prefix stripped nonempty), origin,
      Path.isAbsolute_of_prefix stripped nonempty]
    exact found
  rw [Disk.makeDirectory, located]
  rfl

theorem keeps_makeDirectory {l : Location} (arrives : d.locate true path = .ok (.existing l)) :
    Keeps refusable (take (.makeDirectory path)) d := by
  refine ⟨?_, fun _ _ => rfl⟩
  rw [Step.perform, makeDirectory_eq arrives]
  rfl

theorem keeps_settle (answer : Except FileError Bool) : Keeps refusable (settle path answer) d := by
  cases answer with
  | ok b => exact keeps_pure _
  | error e =>
      refine keeps_isDirectory.bind fun there => ?_
      cases there <;> exact keeps_pure _

/-- What leads somewhere does not become a new directory, however often it is tried. -/
theorem keeps_makeDirectories {depth : Nat}
    (stands : path ≠ [] → ∃ l, d.locate true path = .ok (.existing l)) :
    Keeps refusable (makeDirectories depth path) d := by
  induction depth generalizing path with
  | zero => exact keeps_pure _
  | succ depth ih =>
      rw [makeDirectories]
      split
      · exact keeps_pure _
      · rename_i nonempty
        obtain ⟨l, located⟩ := stands nonempty
        refine (keeps_makeDirectory located).bind fun answer => ?_
        split
        · split
          · rename_i parent above
            have outer : parent ≠ [] → ∃ m, d.locate true parent = .ok (.existing m) :=
              fun some => (Disk.exists_parent located above some).imp fun _ => And.left
            refine (ih outer).bind fun made => ?_
            cases made with
            | error e => exact keeps_pure _
            | ok _ => exact (keeps_makeDirectory located).bind keeps_settle
          · exact keeps_pure _
        · exact keeps_settle answer

/-- Where the directory above a file is there, making it ready does nothing, and it fails
only because of a refusal. -/
theorem ensures_prepare {l : Location} (located : d.locate true path = .ok (.existing l)) :
    (prepare path).Ensures refusable (fun result after =>
      after = d ∧ ∀ error, result = .error error → ∃ s, refusable s) d := by
  have ready : ∀ error, (.ok () : Except CommandError Unit) = .error error →
      ∃ s, refusable s := fun _ => nofun
  rw [prepare]
  split
  · exact ⟨rfl, ready⟩
  · exact ⟨rfl, ready⟩
  · rename_i parent nonempty above
    obtain ⟨m, there, directory⟩ := Disk.exists_parent located above nonempty
    refine ⟨?_, fun may r => ?_⟩
    · rw [Step.perform, Disk.has_of_entryAt? there directory]
      exact ⟨rfl, ready⟩
    · have made : Keeps refusable (makeDirectories (parent.length + 1) parent) d :=
        keeps_makeDirectories fun _ => ⟨m, there⟩
      exact Ensures.mono (made.bind fun _ => keeps_pure _) fun _ _ same =>
        ⟨same, fun _ _ => ⟨_, may⟩⟩

/-! ## The steps of a write -/

/-- What a write ends in: the disk that was to be made, or a failure, which has a cause and
changes nothing if the hidden file can be removed. -/
def Settles (before after : Disk) (cause removable : Prop) : Except CommandError Unit → Disk → Prop
  | .ok _, d => d = after
  | .error _, d => cause ∧ (removable → d = before)

theorem Settles.mono {before after now : Disk} {cause cause' removable removable' : Prop}
    {result : Except CommandError Unit} (settled : Settles before after cause removable result now)
    (why : cause → cause') (can : removable' → removable) :
    Settles before after cause' removable' result now := by
  cases result with
  | ok _ => exact settled
  | error _ => exact ⟨why settled.1, fun holds => settled.2 (can holds)⟩

/-- A write is given up: it fails, and changes nothing if the hidden file can be removed. -/
def GivesUp (before : Disk) (removable : Prop) (result : Except CommandError Unit) (now : Disk) :
    Prop :=
  (∃ error, result = .error error) ∧ (removable → now = before)

theorem GivesUp.settles {before after now : Disk} {cause removable : Prop}
    {result : Except CommandError Unit} (given : GivesUp before removable result now)
    (why : cause) : Settles before after cause removable result now := by
  obtain ⟨⟨error, rfl⟩, restored⟩ := given
  exact ⟨why, restored⟩

theorem kept_putFile {location : Location} {contents : Bytes}
    (missing : d.tree.entryAt? location = none) (m : Location) (e : Entry)
    (stands : d.tree.entryAt? m = some e) :
    (d.putFile location contents).tree.entryAt? m = some e := by
  have apart : m ≠ location := by
    rintro rfl
    simp [missing] at stands
  rw [Disk.entryAt?_putFile_of_ne (by simp [missing]) apart, stands]

section
variable (site : d.Site temporary directory hidden)
  (missing : d.tree.entryAt? (directory ++ [hidden]) = none)
include site missing

theorem site_putFile (contents : Bytes) :
    (d.putFile (directory ++ [hidden]) contents).Site temporary directory hidden :=
  site.of_kept rfl (kept_putFile missing)

theorem write_putFile (old new : Bytes) :
    (d.putFile (directory ++ [hidden]) old).write temporary new =
      .ok (d.putFile (directory ++ [hidden]) new) := by
  have there := site_putFile site missing old
  rw [there.write_file (Disk.entryAt?_putFile site.held), Disk.putFile, Disk.put_put, Disk.putFile]

theorem remove_putFile (contents : Bytes) :
    (d.putFile (directory ++ [hidden]) contents).remove temporary = .ok d := by
  have there := site_putFile site missing contents
  rw [there.remove_file (Disk.entryAt?_putFile site.held), Disk.putFile, Disk.put_put,
    Disk.put_none missing]

theorem rename_putFile (target : d.Site path directory name)
    (replaced : d.tree.entryAt? (directory ++ [name]) ≠ some .directory) (contents : Bytes) :
    (d.putFile (directory ++ [hidden]) contents).rename temporary path =
      .ok (d.putFile (directory ++ [name]) contents) := by
  have there := site_putFile site missing contents
  have put : (d.putFile (directory ++ [hidden]) contents).tree.entryAt? (directory ++ [hidden]) =
      some (.file contents) := Disk.entryAt?_putFile site.held
  have target' : (d.putFile (directory ++ [hidden]) contents).Site path directory name :=
    target.of_kept rfl (kept_putFile missing)
  have leaf : (d.putFile (directory ++ [hidden]) contents).tree.entryAt? (directory ++ [name]) ≠
      some .directory := by
    by_cases same : directory ++ [name] = directory ++ [hidden]
    · rw [same, put]
      simp
    · rwa [Disk.entryAt?_putFile_of_ne (by simp [missing]) same]
  rw [there.rename_file put target' leaf, Disk.putFile, Disk.put_put, Disk.put_none missing,
    Disk.putFile]

section
variable {held : Disk → Prop} (before : held d)
include before

/-- Giving up on the hidden file restores the disk, unless that is refused. -/
theorem secures_remove {part : Bytes} (now : held (d.putFile (directory ++ [hidden]) part))
    (error : CommandError) :
    (do let _ ← take (.remove temporary); return .error error : Script _).Secures refusable held
      (GivesUp d (¬refusable (.remove temporary))) (d.putFile (directory ++ [hidden]) part) := by
  refine ⟨now, fun _ => now, ?_, fun refused r => ⟨now, ⟨_, rfl⟩, fun kept => absurd refused kept⟩⟩
  rw [Step.perform, remove_putFile site missing]
  exact ⟨before, ⟨_, rfl⟩, fun _ => rfl⟩

/-- Giving up because of a refusal settles a write. -/
theorem secures_remove_of_refusal {part : Bytes} {s : Step}
    (now : held (d.putFile (directory ++ [hidden]) part)) (may : refusable s)
    (error : CommandError) (after : Disk) :
    (do let _ ← take (.remove temporary); return .error error : Script _).Secures refusable held
      (Settles d after (∃ s, refusable s) (¬refusable (.remove temporary)))
      (d.putFile (directory ++ [hidden]) part) :=
  (secures_remove site missing before now error).mono (fun _ kept => kept)
    fun _ _ _ given => given.settles ⟨s, may⟩

variable {contents : Bytes}

/-- The hidden file is filled, or it is taken away again; meanwhile it holds a part of the
contents. -/
theorem secures_fill
    (amid : ∀ part, part <+: contents → held (d.putFile (directory ++ [hidden]) part)) :
    (fill temporary contents).Secures refusable held
      (Settles d (d.putFile (directory ++ [hidden]) contents) (∃ s, refusable s)
        (¬refusable (.remove temporary))) d := by
  have created : Step.perform d (.create temporary) =
      (.ok true, d.putFile (directory ++ [hidden]) []) := by
    rw [Step.perform, site.create_missing missing]
    rfl
  have wrote : ∀ some, Step.perform (d.putFile (directory ++ [hidden]) []) (.write temporary some) =
      (.ok true, d.putFile (directory ++ [hidden]) some) := by
    intro some
    rw [Step.perform, write_putFile site missing]
    rfl
  have put : (d.putFile (directory ++ [hidden]) contents).tree.entryAt? (directory ++ [hidden]) =
      some (.file contents) := Disk.entryAt?_putFile site.held
  have synced : (d.putFile (directory ++ [hidden]) contents).node temporary =
      .ok (.file contents) :=
    Disk.node_eq_ok_iff.2 ⟨_, (site_putFile site missing contents).locate_file put,
      entryAt?_eq_file_iff.1 put⟩
  have empty := amid [] List.nil_prefix
  have whole := amid contents List.prefix_rfl
  have partly : ∀ r : Refusal, Step.refused r (d.putFile (directory ++ [hidden]) [])
      (.write temporary contents) =
        d.putFile (directory ++ [hidden]) (contents.take r.written) := by
    intro r
    rw [Step.refused, wrote]
  rw [fill]
  refine ⟨before, fun _ => before, ?_, fun may r => ⟨before, ⟨_, may⟩, fun _ => rfl⟩⟩
  rw [created]
  refine ⟨empty, fun r => ?_, ?_, fun may r => ?_⟩
  · rw [partly]
    exact amid _ (List.take_prefix _ _)
  · rw [wrote]
    refine ⟨whole, fun _ => whole, ?_, fun may r =>
      secures_remove_of_refusal site missing before whole may _ _⟩
    rw [Step.perform, synced]
    exact ⟨whole, rfl⟩
  · rw [partly]
    exact secures_remove_of_refusal site missing before (amid _ (List.take_prefix _ _)) may _ _

variable (now : held (d.putFile (directory ++ [hidden]) contents))
include now

/-- The hidden file takes the place of the target, or it is taken away again. -/
theorem secures_install {after : Disk}
    (renamed : (d.putFile (directory ++ [hidden]) contents).rename temporary path = .ok after)
    (replaced : held after) :
    (install temporary path).Secures refusable held
      (Settles d after (∃ s, refusable s) (¬refusable (.remove temporary)))
      (d.putFile (directory ++ [hidden]) contents) := by
  rw [install]
  refine ⟨now, fun _ => now, ?_, fun may r =>
    secures_remove_of_refusal site missing before now may _ _⟩
  rw [Step.perform, renamed]
  cases Path.parent? path with
  | none => exact ⟨replaced, rfl⟩
  | some parent =>
      exact ⟨replaced, fun _ => replaced, ⟨replaced, rfl⟩, fun _ _ => ⟨replaced, rfl⟩⟩

/-- Where the hidden file cannot take the place of the target, it is taken away again. -/
theorem secures_install_of_error {e : FileError}
    (refused : (d.putFile (directory ++ [hidden]) contents).rename temporary path = .error e) :
    (install temporary path).Secures refusable held (GivesUp d (¬refusable (.remove temporary)))
      (d.putFile (directory ++ [hidden]) contents) := by
  rw [install]
  refine ⟨now, fun _ => now, ?_, fun _ r => secures_remove site missing before now _⟩
  rw [Step.perform, refused]
  exact secures_remove site missing before now _

end

end

/-- Where the hidden file cannot be made, nothing is filled. -/
theorem secures_fill_of_error {held : Disk → Prop} {e : FileError} (before : held d)
    (refused : d.create temporary = .error e) (contents : Bytes) :
    (fill temporary contents).Secures refusable held
      (fun result after => (∃ error, result = .error error) ∧ after = d) d := by
  rw [fill]
  refine ⟨before, fun _ => before, ?_, fun _ r => ⟨before, ⟨_, rfl⟩, rfl⟩⟩
  rw [Step.perform, refused]
  exact ⟨before, ⟨_, rfl⟩, rfl⟩

/-- Where the hidden file cannot even be looked for, nothing is filled. -/
theorem ensures_fill_of_error {e : FileError}
    (lost : ∀ follow, d.locate follow temporary = .error e) (contents : Bytes) :
    (fill temporary contents).Ensures refusable
      (fun result after => (∃ error, result = .error error) ∧ after = d) d := by
  have refused : ∃ error, d.create temporary = .error error := by
    rw [Disk.create]
    split
    · exact ⟨_, rfl⟩
    · rw [lost true]
      exact ⟨_, rfl⟩
  obtain ⟨error, refused⟩ := refused
  exact (@secures_fill_of_error _ _ _ (fun _ => True) _ trivial refused contents).ensures

/-- Why a write to a file that is there may fail: a step is refused, or the path of the
hidden file cannot be walked. -/
def Hindered (d : Disk) (process : Nat) (path : Text) (refusable : Step → Prop) : Prop :=
  (∃ s, refusable s) ∨ ∃ temporary error, temporary? process path = some temporary ∧
    d.locate true temporary = .error error

/-- **A write puts all of the new contents in the place of what stands at the path, or it
is hindered and changes nothing.** What is held of the disk before it, of that with anything in a
hidden file and of that with the new contents is held of the disk that it leaves. -/
theorem ensures_atomicWrite {held : Disk → Prop} {l : Location}
    (site : d.Site path directory name) (located : d.locate true path = .ok (.existing l))
    (replaced : d.tree.entryAt? (directory ++ [name]) ≠ some .directory)
    (lacks : ∀ temporary, temporary? process path = some temporary → d.Lacks temporary)
    {contents : Bytes} (before : held d)
    (amid : ∀ hidden part, d.tree.entryAt? (directory ++ [hidden]) = none →
      held (d.putFile (directory ++ [hidden]) part))
    (done : held (d.putFile (directory ++ [name]) contents)) :
    (atomicWrite process path contents).Ensures refusable
      (fun result after => held after ∧
        Settles d (d.putFile (directory ++ [name]) contents) (Hindered d process path refusable)
          (∀ temporary, temporary? process path = some temporary →
            ¬refusable (.remove temporary)) result after) d := by
  obtain ⟨parent, _, -, beside⟩ := @exists_parts_of_site _ _ _ _ process site
  rw [atomicWrite]
  refine ensures_bind.2 ((ensures_prepare located).mono fun ready after kept => ?_)
  obtain ⟨rfl, refused⟩ := kept
  cases ready with
  | error e => exact ⟨before, Or.inl (refused e rfl), fun _ => rfl⟩
  | ok _ =>
      generalize Path.join parent (hiddenName process name) = temporary at beside
      have can : (∀ t, some temporary = some t → ¬refusable (.remove t)) →
          ¬refusable (.remove temporary) := fun removable => removable temporary rfl
      simp only [beside]
      rcases site_temporary beside with there | ⟨e, lost⟩
      · have missing := (there _ site).entryAt?_eq_none (lacks temporary beside)
        have filling : (fill temporary contents).Secures refusable held _ after :=
          secures_fill (there _ site) missing before fun part _ => amid _ part missing
        refine ensures_bind.2 ((Secures.ensures_held filling).mono fun filled after settled => ?_)
        obtain ⟨now, settled⟩ := settled
        cases filled with
        | error e => exact ⟨now, settled.mono Or.inl can⟩
        | ok _ =>
            rw [show after = _ from settled]
            have renamed := rename_putFile (there _ site) missing site replaced contents
            have installing : (install temporary path).Secures refusable held _ _ :=
              secures_install (there _ site) missing before (amid _ contents missing) renamed done
            exact (Secures.ensures_held installing).mono fun _ _ settled =>
              ⟨settled.1, settled.2.mono Or.inl can⟩
      · refine ensures_bind.2 ((ensures_fill_of_error (lost _ · site) contents).mono ?_)
        rintro _ after ⟨⟨error, rfl⟩, rfl⟩
        exact ⟨before, Or.inr ⟨temporary, e, beside, lost _ _ site⟩, fun _ => rfl⟩

/-! ## The disk after a write -/

section
variable (site : d.Site path directory name)
  (leaf : IsLeaf d.tree directory name)
include site leaf

theorem entryAt?_ne_directory : d.tree.entryAt? (directory ++ [name]) ≠ some .directory :=
  fun held => leaf 0 _ (.enter site.isName held (by simp) .done) held

/-- A path to a file leads where it led when that file is replaced. -/
theorem site_putFile_self (contents : Bytes) :
    (d.putFile (directory ++ [name]) contents).Site path directory name := by
  have replaced := entryAt?_ne_directory site leaf
  obtain ⟨first, steps, n, within, route⟩ := site.route
  have kept := fun m apart =>
    @Disk.entryAt?_putFile_of_ne d contents (directory ++ [name]) m replaced apart
  have held : (d.putFile (directory ++ [name]) contents).tree.entryAt? directory =
      some .directory := by
    rw [kept directory (by simp), site.held]
  exact ⟨site.fit, site.unslashed, site.isName, held, first, steps, n, within,
    route.of_replaced site.held site.isName kept leaf⟩

end

end PromptDoc.AtomicWrite

namespace PromptDoc.Disk

open FileTree

/-- One disk is another with a file in the place of what stood at a path: that is what is
read there, and nothing stands elsewhere that did not before, or the other way. -/
structure Replaces (before : Disk) (path : Text) (contents : Bytes) (after : Disk) : Prop where
  workingDirectory : after.workingDirectory = before.workingDirectory
  read : after.read path = .ok contents
  entries : ∃ directory name, before.holder path = .ok (directory, name) ∧
    after.tree.entryAt? (directory ++ [name]) = some (.file contents) ∧
    ∀ l, l ≠ directory ++ [name] → after.tree.entryAt? l = before.tree.entryAt? l

section
variable {d : Disk} {path : Text} {directory : Location} {name : Text} {process : Nat}
  (site : d.Site path directory name)
  (leaf : IsLeaf d.tree directory name)
include site leaf

theorem replaces_putFile (contents : Bytes) :
    d.Replaces path contents (d.putFile (directory ++ [name]) contents) := by
  have replaced := AtomicWrite.entryAt?_ne_directory site leaf
  have put : (d.putFile (directory ++ [name]) contents).tree.entryAt? (directory ++ [name]) =
      some (.file contents) := entryAt?_putFile site.held
  have there := AtomicWrite.site_putFile_self site leaf contents
  exact ⟨rfl, read_eq_ok_iff.2 ⟨_, there.locate_file put, put⟩,
    directory, name, site.holder_eq, put, fun l => entryAt?_putFile_of_ne replaced⟩

/-- Where no hidden file was, none is left. -/
theorem lacks_putFile {temporary : Text}
    (beside : AtomicWrite.temporary? process path = some temporary) (lacks : d.Lacks temporary)
    (contents : Bytes) : (d.putFile (directory ++ [name]) contents).Lacks temporary := by
  have there := AtomicWrite.site_putFile_self site leaf contents
  rcases AtomicWrite.site_temporary beside with sites | ⟨e, lost⟩
  · have missing := (sites d site).entryAt?_eq_none lacks
    have apart : directory ++ [AtomicWrite.hiddenName process name] ≠ directory ++ [name] := by
      intro same
      have long := @AtomicWrite.length_hiddenName name process
      rw [List.singleton_inj.1 (List.append_cancel_left same)] at long
      omega
    have still : (d.putFile (directory ++ [name]) contents).tree.entryAt?
        (directory ++ [AtomicWrite.hiddenName process name]) = none := by
      rw [entryAt?_putFile_of_ne (AtomicWrite.entryAt?_ne_directory site leaf) apart, missing]
    intro l
    rw [(sites _ there).locate_missing still]
    simp
  · intro l
    rw [lost _ false there]
    simp

end

/-- A file that can be read has a site, and no directory stands there. -/
theorem exists_leaf {d : Disk} {path : Text} {contents : Bytes}
    (readable : d.read path = .ok contents) :
    ∃ directory name, d.Site path directory name ∧
      (∃ l, d.locate true path = .ok (.existing l)) ∧ IsLeaf d.tree directory name := by
  obtain ⟨directory, name, site, n, l, -, route, file⟩ := exists_site readable
  obtain ⟨there, located, -⟩ := read_eq_ok_iff.1 readable
  refine ⟨directory, name, site, ⟨there, located⟩, fun k m other => ?_⟩
  rw [← route.unique other, file]
  simp

/-- What can be read is read when something is put where nothing was. -/
theorem read_of_kept {d u : Disk} {path : Text} {contents : Bytes}
    (readable : d.read path = .ok contents) (same : u.workingDirectory = d.workingDirectory)
    (kept : ∀ m e, d.tree.entryAt? m = some e → u.tree.entryAt? m = some e) :
    u.read path = .ok contents := by
  obtain ⟨l, located, file⟩ := read_eq_ok_iff.1 readable
  obtain ⟨fit, n, within, route⟩ := locate_eq_ok_iff.1 located
  exact read_eq_ok_iff.2
    ⟨l, locate_eq_ok_iff.2 ⟨fit, n, within, same ▸ route.of_kept kept⟩, kept l _ file⟩

/-- **A write to a file replaces it, and leaves no hidden file, or it is refused and, if the
hidden file can be removed, changes nothing.** However it ends, reading the file gives what it held
before or all of the new contents. -/
theorem ensures_atomicWrite_of_read {d : Disk} {path : Text} {old : Bytes} {process : Nat}
    {refusable : Step → Prop} (readable : d.read path = .ok old)
    (lacks : ∀ temporary, AtomicWrite.temporary? process path = some temporary →
      d.Lacks temporary) (contents : Bytes) :
    (atomicWrite process path contents).Ensures refusable
      (fun result after =>
        match result with
        | .ok _ => d.Replaces path contents after ∧
            ∀ temporary, AtomicWrite.temporary? process path = some temporary →
              after.Lacks temporary
        | .error _ => AtomicWrite.Hindered d process path refusable ∧
          ((∀ temporary, AtomicWrite.temporary? process path = some temporary →
            ¬refusable (.remove temporary)) → after = d) ∧
          (after.read path = .ok old ∨ after.read path = .ok contents)) d := by
  obtain ⟨directory, name, site, ⟨there, located⟩, leaf⟩ := exists_leaf readable
  have replaced := AtomicWrite.entryAt?_ne_directory site leaf
  have done := replaces_putFile site leaf contents
  have amid : ∀ hidden part, d.tree.entryAt? (directory ++ [hidden]) = none →
      (d.putFile (directory ++ [hidden]) part).read path = .ok old := fun _ _ missing =>
    read_of_kept readable rfl (AtomicWrite.kept_putFile missing)
  let held (u : Disk) : Prop := u.read path = .ok old ∨ u.read path = .ok contents
  refine (@AtomicWrite.ensures_atomicWrite _ _ _ _ _ _ held _ site located replaced lacks _
    (Or.inl readable) (fun hidden part missing => Or.inl (amid hidden part missing))
    (Or.inr done.read)).mono ?_
  rintro result after ⟨now, settled⟩
  cases result with
  | error e => exact ⟨settled.1, settled.2, now⟩
  | ok _ =>
      rw [show after = _ from settled]
      exact ⟨done, fun temporary beside =>
        lacks_putFile site leaf beside (lacks temporary beside) contents⟩

end PromptDoc.Disk
