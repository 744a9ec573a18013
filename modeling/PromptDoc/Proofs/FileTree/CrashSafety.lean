/-
# PromptDoc.Proofs.FileTree.CrashSafety — what is on the disk while a file is replaced

A write makes directories, fills the hidden file and renames it. Until the renaming, the
disk is the old one with directories made for the path (`Disk.Prepares`) and, for a while,
the hidden file; after it, the target is the new file. The hidden file is never the target:
its name is longer (`Denotes.ne_temporary`). So `Disk.Intact` holds at every moment,
whichever steps are refused and wherever the run is cut off (`crashSafe_atomicWrite`).

The directories are the one thing that may come in the place of the target: a path such as
`a/../a` passes by its own entry (`atomicWrite_ownParent`).
-/
import PromptDoc.Proofs.FileTree.AtomicWrite
import PromptDoc.Proofs.FileTree.Opens

namespace PromptDoc

set_option autoImplicit false

open FileTree Script AtomicWrite

/-- The paths above a path: its parent, the parent of that, and so on. -/
inductive Path.Above (path : Text) : Text → Prop
  | parent {p} : Path.parent? path = some p → Path.Above path p
  | outer {p q} : Path.Above path p → Path.parent? p = some q → Path.Above path q

namespace Disk

/-! ## The disk before, during and after a write -/

/-- Where nothing stood, a directory was made because a path above this one leads there. -/
structure Made (before : Disk) (path : Text) (after : Disk) (l : Location) : Prop where
  missing : before.tree.entryAt? l = none
  directory : after.tree.entryAt? l = some .directory
  above : ∃ p, Path.Above path p ∧ before.Denotes p l

/-- All that changed is that directories were made for a path. -/
structure Prepares (before : Disk) (path : Text) (after : Disk) : Prop where
  workingDirectory : after.workingDirectory = before.workingDirectory
  entries : ∀ l, after.tree.entryAt? l = before.tree.entryAt? l ∨ before.Made path after l

/-- What is sure at every moment of a write. -/
structure Intact (before : Disk) (process : Nat) (path : Text) (contents : Bytes)
    (seen : Disk) : Prop where
  workingDirectory : seen.workingDirectory = before.workingDirectory
  /-- The target is what it was or the whole new file, unless it is a directory made for its
  own path. -/
  target : ∀ l, before.Denotes path l →
    seen.tree.entryAt? l = before.tree.entryAt? l ∨
      seen.tree.entryAt? l = some (.file contents) ∨ before.Made path seen l
  /-- Everything else that was there is as it was. -/
  kept : ∀ l e, ¬before.Denotes path l → before.tree.entryAt? l = some e →
    seen.tree.entryAt? l = some e
  /-- All that comes up beside the target are directories made for the path and the hidden
  file, with some first part of the contents. -/
  new : ∀ l, ¬before.Denotes path l → before.tree.entryAt? l = none →
    seen.tree.entryAt? l = none ∨ before.Made path seen l ∨
      ∃ temporary part, temporary? process path = some temporary ∧ before.Denotes temporary l ∧
        part <+: contents ∧ seen.tree.entryAt? l = some (.file part)

/-- A write is done: the target is the new file, no hidden file is left, and all that
changed besides is that directories were made for the path. -/
structure Installed (before : Disk) (process : Nat) (path : Text) (contents : Bytes)
    (after : Disk) : Prop where
  workingDirectory : after.workingDirectory = before.workingDirectory
  target : ∃ l, before.Denotes path l ∧ after.tree.entryAt? l = some (.file contents)
  others : ∀ l, ¬before.Denotes path l →
    after.tree.entryAt? l = before.tree.entryAt? l ∨ before.Made path after l
  clean : ∀ temporary l, temporary? process path = some temporary →
    before.Denotes temporary l → after.tree.entryAt? l = none

variable {d u v : Disk} {process : Nat} {path temporary : Text} {contents part : Bytes}
  {l hidden target : Location} {refusable : Step → Prop}

/-! ## The hidden file and the target -/

/-- The hidden file is named after the last component of the path that means something. -/
theorem exists_of_temporary (beside : temporary? process path = some temporary) :
    ∃ parent name before after, Path.Parts path parent name before after ∧
      Path.names temporary = Path.names parent ++ [hiddenName process name] := by
  cases named : Path.fileName? path with
  | none => simp [temporary?, named] at beside
  | some name =>
      have meaning : Path.body path ≠ [] := by
        intro empty
        simp [Path.fileName?, empty] at named
      obtain ⟨parent, last, before, after, parts⟩ := Path.exists_parts meaning
      obtain rfl : last = name := by
        simp only [Path.fileName?, parts.last_eq, Option.ite_none_left_eq_some] at named
        exact Option.some_inj.1 named.2
      simp only [temporary?, named, parts.parent_eq] at beside
      obtain rfl := Option.some_inj.1 beside
      have free := @slash_not_mem_hiddenName last process parts.free
      refine ⟨parent, last, before, after, parts, ?_⟩
      rw [Path.names_join (Path.isAbsolute_of_free free),
        Path.names_of_free free (hiddenName_ne (by simp))]

/-- The hidden file is never the target. -/
theorem Denotes.ne_temporary (denotes : d.Denotes path target)
    (beside : temporary? process path = some temporary) (other : d.Denotes temporary hidden) :
    target ≠ hidden := by
  obtain ⟨parent, base, before, after, parts, named⟩ := exists_of_temporary beside
  obtain ⟨first, name, directory, names, isName, -, rfl⟩ := denotes
  obtain ⟨first', name', directory', names', -, -, rfl⟩ := other
  -- Dots behind the last component of the path would be the end of its names.
  obtain rfl : base = name := by
    rw [parts.names_eq] at names
    obtain rfl | ⟨rest, dot, rfl⟩ := List.eq_nil_or_concat after
    · exact List.singleton_inj.1 (List.append_inj_right' names rfl)
    · rw [List.concat_eq_append, ← List.cons_append, ← List.append_assoc] at names
      obtain rfl := List.singleton_inj.1 (List.append_inj_right' names rfl)
      exact absurd (parts.dots_after dot (by simp)) isName.ne_dot
  rw [named] at names'
  obtain rfl := List.singleton_inj.1 (List.append_inj_right' names' rfl)
  intro same
  have long := @length_hiddenName base process
  rw [← List.singleton_inj.1 (List.append_inj_right' same rfl)] at long
  omega

/-! ## Making directories -/

theorem Made.of_eq (made : d.Made path u l)
    (same : v.tree.entryAt? l = u.tree.entryAt? l) : d.Made path v l :=
  ⟨made.missing, same.trans made.directory, made.above⟩

theorem Prepares.refl : d.Prepares path d := ⟨rfl, fun _ => Or.inl rfl⟩

namespace Prepares

variable (prepared : d.Prepares path u)
include prepared

/-- What is missing afterwards was missing before. -/
theorem missing (still : u.tree.entryAt? l = none) : d.tree.entryAt? l = none := by
  rcases prepared.entries l with same | made
  · rw [← same, still]
  · exact made.missing

theorem kept {e : Entry} (stands : d.tree.entryAt? l = some e) : u.tree.entryAt? l = some e := by
  rcases prepared.entries l with same | made
  · rw [same, stands]
  · rw [made.missing] at stands
    cases stands

theorem link_iff (m : Location) (aim : Text) :
    d.tree.entryAt? m = some (.link aim) ↔ u.tree.entryAt? m = some (.link aim) := by
  rcases prepared.entries m with same | made
  · rw [same]
  · rw [made.missing, made.directory]
    simp

theorem denotes_iff {p : Text} : d.Denotes p l ↔ u.Denotes p l :=
  ⟨fun denotes => denotes.of_links prepared.workingDirectory prepared.link_iff,
    fun denotes => denotes.of_links prepared.workingDirectory.symm
      fun m aim => (prepared.link_iff m aim).symm⟩

/-- One more directory made for the path is one of those that are made for it. -/
theorem makeDirectory {p : Text} (above : Path.Above path p) (made : u.makeDirectory p = .ok v) :
    d.Prepares path v := by
  obtain ⟨directory, name, denotes, held, missing, rfl⟩ := makeDirectory_inversion made
  refine ⟨prepared.workingDirectory, fun l => ?_⟩
  have bare : ∀ new, some (FileTree.directory []) = some new → ∀ below, below ≠ [] →
      new.entryAt? below = none := by
    rintro new ⟨⟩ below deeper
    obtain ⟨first, rest, rfl⟩ := List.exists_cons_of_ne_nil deeper
    rfl
  by_cases here : l = directory ++ [name]
  · subst here
    refine Or.inr ⟨prepared.missing missing, ?_, p, above, prepared.denotes_iff.2 denotes⟩
    exact entryAt?_eq_directory_iff.2 ⟨[], get?_set name held⟩
  · have same : (u.put (directory ++ [name]) (some (.directory []))).tree.entryAt? l =
        u.tree.entryAt? l := entryAt?_set_of_ne u.tree bare (by simp [missing]) here
    exact (prepared.entries l).imp same.trans fun made => made.of_eq same

/-- A disk with nothing but such directories is intact. -/
theorem intact : d.Intact process path contents u where
  workingDirectory := prepared.workingDirectory
  target l _ := (prepared.entries l).imp_right Or.inr
  kept _ _ _ stands := prepared.kept stands
  new l _ missing := (prepared.entries l).imp (fun same => same.trans missing) Or.inl

end Prepares

/-- A script that, on disks with directories made for a path, does no more than make such
directories. -/
def Readies {α : Type} (refusable : Step → Prop) (d : Disk) (path : Text) (script : Script α) :
    Prop :=
  ∀ u, d.Prepares path u → script.Secures refusable (d.Prepares path) (fun _ _ => True) u

theorem Readies.bind {α β : Type} {script : Script α} {next : α → Script β}
    (first : Readies refusable d path script) (rest : ∀ a, Readies refusable d path (next a)) :
    Readies refusable d path (script >>= next) := fun u prepared =>
  secures_bind.2 ((first u prepared).mono (fun _ held => held) fun a now held _ => rest a now held)

theorem readies_pure {α : Type} (a : α) : Readies refusable d path (pure a) :=
  fun _ prepared => secures_pure.2 ⟨prepared, trivial⟩

/-- A question changes nothing, whether it is answered or refused. -/
theorem readies_ask {s : Step} (asks : ∀ u, (s.perform u).2 = u)
    (refused : ∀ r u, s.refused r u = u) : Readies refusable d path (ask s) := by
  intro u prepared
  refine ⟨prepared, fun r => by rwa [refused], ?_, fun _ r => ?_⟩
  · rw [asks]
    exact secures_pure.2 ⟨prepared, trivial⟩
  · rw [refused]
    exact secures_pure.2 ⟨prepared, trivial⟩

theorem readies_makeDirectory {p : Text} (above : Path.Above path p) :
    Readies refusable d path (take (.makeDirectory p)) := by
  intro u prepared
  refine ⟨prepared, fun _ => prepared, ?_, fun _ _ => ⟨prepared, trivial⟩⟩
  rw [Step.perform]
  cases made : u.makeDirectory p with
  | error e => exact ⟨prepared, trivial⟩
  | ok v => exact ⟨prepared.makeDirectory above made, trivial⟩

theorem readies_settle (p : Text) (answer : Except FileError Bool) :
    Readies refusable d path (settle p answer) := by
  cases answer with
  | ok b => exact readies_pure _
  | error e =>
      refine (readies_ask (fun _ => rfl) fun _ _ => rfl).bind fun there => ?_
      cases there <;> exact readies_pure _

theorem readies_makeDirectories {p : Text} (depth : Nat) (above : Path.Above path p) :
    Readies refusable d path (makeDirectories depth p) := by
  induction depth generalizing p with
  | zero => exact readies_pure _
  | succ depth ih =>
      rw [makeDirectories]
      split
      · exact readies_pure _
      refine (readies_makeDirectory above).bind fun answer => ?_
      split
      · split
        · rename_i outer next
          refine (ih (above.outer next)).bind fun made => ?_
          cases made with
          | error e => exact readies_pure _
          | ok _ => exact (readies_makeDirectory above).bind (readies_settle p)
        · exact readies_pure _
      · exact readies_settle p answer

theorem readies_prepare : Readies refusable d path (prepare path) := by
  intro u prepared
  rw [prepare]
  split
  · exact readies_pure _ u prepared
  · exact readies_pure _ u prepared
  · rename_i parent _ above
    have asked : Readies refusable d path (ask (.has parent)) :=
      readies_ask (fun _ => rfl) fun _ _ => rfl
    refine asked.bind (fun there => ?_) u prepared
    cases there with
    | true => exact readies_pure _
    | false => exact (readies_makeDirectories _ (.parent above)).bind fun _ => readies_pure _

/-! ## The hidden file and the new one -/

section
variable {directory : Location} {name : Text} (prepared : d.Prepares path u)
  (site : u.Site temporary directory name)
  (missing : u.tree.entryAt? (directory ++ [name]) = none)
  (beside : temporary? process path = some temporary)
include prepared site missing beside

/-- With a part of the contents in the hidden file a disk is intact. -/
theorem Prepares.intact_putFile (cut : part <+: contents) :
    d.Intact process path contents (u.putFile (directory ++ [name]) part) := by
  have denotes := prepared.denotes_iff.2 site.denotes
  have elsewhere : ∀ {l}, l ≠ directory ++ [name] →
      (u.putFile (directory ++ [name]) part).tree.entryAt? l = u.tree.entryAt? l :=
    entryAt?_putFile_of_ne (by simp [missing])
  refine ⟨prepared.workingDirectory, fun l target => ?_, fun l e _ stands => ?_,
    fun l _ absent => ?_⟩
  · have same := elsewhere (target.ne_temporary beside denotes)
    exact (prepared.entries l).imp same.trans fun made => Or.inr (made.of_eq same)
  · have apart : l ≠ directory ++ [name] := by
      rintro rfl
      rw [prepared.missing missing] at stands
      cases stands
    rw [elsewhere apart, prepared.kept stands]
  · by_cases here : l = directory ++ [name]
    · subst here
      exact Or.inr (Or.inr ⟨temporary, part, beside, denotes, cut, entryAt?_putFile site.held⟩)
    · have same := elsewhere here
      exact (prepared.entries l).imp (fun old => same.trans (old.trans absent)) fun made =>
        Or.inl (made.of_eq same)

/-- The hidden file takes the place of the target alone. -/
theorem Prepares.installed
    (renamed : (u.putFile (directory ++ [name]) contents).rename temporary path = .ok v) :
    d.Installed process path contents v := by
  have opens := site.opens missing
  have put : (u.putFile (directory ++ [name]) contents).tree.entryAt? (directory ++ [name]) =
      some (.file contents) := opens.entryAt?_putFile
  have elsewhere : ∀ {l}, l ≠ directory ++ [name] →
      (u.putFile (directory ++ [name]) contents).tree.entryAt? l = u.tree.entryAt? l :=
    opens.entryAt?_putFile_of_ne
  obtain ⟨above, last, leads, held, replaced, rfl⟩ :=
    rename_inversion (site_putFile site missing contents) put renamed
  have denotes := prepared.denotes_iff.2 site.denotes
  have target : d.Denotes path (above ++ [last]) := by
    refine prepared.denotes_iff.2 (leads.of_links rfl fun m aim => ?_)
    exact (opens.link_iff m aim).symm
  have apart := target.ne_temporary beside denotes
  have beyond : above ≠ directory ++ [name] := by
    rintro rfl
    rw [put] at held
    cases held
  rw [elsewhere beyond] at held
  rw [elsewhere apart] at replaced
  rw [putFile, put_put, put_none missing]
  have others : ∀ {l}, l ≠ above ++ [last] →
      (u.putFile (above ++ [last]) contents).tree.entryAt? l = u.tree.entryAt? l :=
    entryAt?_putFile_of_ne replaced
  refine ⟨prepared.workingDirectory, ⟨_, target, entryAt?_putFile held⟩, fun l other => ?_,
    fun temporary' l beside' denotes' => ?_⟩
  · have outside : l ≠ above ++ [last] := fun here => other (here ▸ target)
    have same := others outside
    exact (prepared.entries l).imp same.trans fun made => made.of_eq same
  · obtain rfl := Option.some_inj.1 (beside.symm.trans beside')
    obtain rfl := denotes.unique denotes'
    exact (others apart.symm).trans missing

end

/-- A disk on which a write is done is intact. -/
theorem Installed.intact (done : d.Installed process path contents u) :
    d.Intact process path contents u := by
  obtain ⟨place, target, file⟩ := done.target
  refine ⟨done.workingDirectory, fun l denotes => ?_, fun l e other stands => ?_,
    fun l other absent => ?_⟩
  · obtain rfl := target.unique denotes
    exact Or.inr (Or.inl file)
  · rcases done.others l other with same | made
    · rw [same, stands]
    · rw [made.missing] at stands
      cases stands
  · exact (done.others l other).imp (fun same => same.trans absent) Or.inl

/-! ## Every moment of a write -/

/-- What a write ends in: it is done, or it has failed; then, if the hidden file can be
removed, all that is left of it are directories made for the path. -/
def Concludes (before : Disk) (process : Nat) (path : Text) (contents : Bytes)
    (removable : Prop) : Except CommandError Unit → Disk → Prop
  | .ok _, after => before.Installed process path contents after
  | .error _, after => removable → before.Prepares path after

theorem Concludes.mono {removable removable' : Prop} {result : Except CommandError Unit}
    (concluded : d.Concludes process path contents removable result u)
    (can : removable' → removable) : d.Concludes process path contents removable' result u := by
  cases result with
  | ok _ => exact concluded
  | error _ => exact fun holds => concluded (can holds)

section
variable {directory : Location} {name : Text} (prepared : d.Prepares path u)
  (site : u.Site temporary directory name)
  (missing : u.tree.entryAt? (directory ++ [name]) = none)
  (beside : temporary? process path = some temporary)
include prepared site missing beside

/-- The full hidden file is renamed or given up. -/
theorem Prepares.secures_install :
    (install temporary path).Secures refusable (d.Intact process path contents)
      (d.Concludes process path contents (¬refusable (.remove temporary)))
      (u.putFile (directory ++ [name]) contents) := by
  have whole : d.Intact process path contents (u.putFile (directory ++ [name]) contents) :=
    prepared.intact_putFile site missing beside List.prefix_rfl
  cases renamed : (u.putFile (directory ++ [name]) contents).rename temporary path with
  | error e =>
      refine (secures_install_of_error site missing prepared.intact whole renamed).mono
        (fun _ held => held) ?_
      rintro _ after - ⟨⟨error, rfl⟩, restored⟩
      exact fun removable => restored removable ▸ prepared
  | ok v =>
      have done := prepared.installed site missing beside renamed
      refine (AtomicWrite.secures_install site missing prepared.intact whole renamed
        done.intact).mono (fun _ held => held) fun result after _ settled => ?_
      cases result with
      | error e => exact fun removable => settled.2 removable ▸ prepared
      | ok _ => exact (show after = v from settled) ▸ done

/-- The hidden file is filled and renamed, or it is given up. -/
theorem Prepares.secures_fill :
    (do match ← fill temporary contents with
        | .error e => return .error e
        | .ok _ => install temporary path : Script _).Secures refusable
      (d.Intact process path contents)
      (d.Concludes process path contents (¬refusable (.remove temporary))) u := by
  have amid : ∀ part, part <+: contents →
      d.Intact process path contents (u.putFile (directory ++ [name]) part) :=
    fun part => prepared.intact_putFile site missing beside
  refine secures_bind.2 ((AtomicWrite.secures_fill site missing prepared.intact amid).mono
    (fun _ held => held) fun filled after held settled => ?_)
  cases filled with
  | error e => exact ⟨held, fun removable => settled.2 removable ▸ prepared⟩
  | ok _ =>
      rw [show after = _ from settled]
      exact prepared.secures_install site missing beside

end

/-- A write is secured: by what makes directories, and then by what fills and renames the
hidden file, which is a new one if it can be made at all. -/
theorem secures_atomicWrite
    (clear : ∀ temporary l, temporary? process path = some temporary → d.Denotes temporary l →
      d.tree.entryAt? l = none) (contents : Bytes) :
    (atomicWrite process path contents).Secures refusable (d.Intact process path contents)
      (d.Concludes process path contents (∀ temporary, temporary? process path = some temporary →
        ¬refusable (.remove temporary))) d := by
  rw [atomicWrite]
  refine secures_bind.2 ((readies_prepare d .refl).mono (fun _ => Prepares.intact)
    fun ready u prepared _ => ?_)
  cases ready with
  | error e => exact ⟨prepared.intact, fun _ => prepared⟩
  | ok _ =>
      dsimp only
      split
      · exact ⟨prepared.intact, fun _ => prepared⟩
      rename_i temporary beside
      cases created : u.create temporary with
      | error e =>
          refine secures_bind.2 ((secures_fill_of_error prepared.intact created contents).mono
            (fun _ held => held) ?_)
          rintro _ after - ⟨⟨error, rfl⟩, rfl⟩
          exact ⟨prepared.intact, fun _ => prepared⟩
      | ok v =>
          obtain ⟨parent, name, before, after, -, names⟩ := exists_of_temporary beside
          obtain ⟨directory, site, missing, -⟩ := create_inversion created names
            (hiddenName_ne (by simp)) (hiddenName_ne (by simp)) fun l denotes =>
              (prepared.entries l).imp
                (fun same => same.trans (clear _ _ beside (prepared.denotes_iff.2 denotes)))
                Made.directory
          exact (prepared.secures_fill site missing beside).mono (fun _ held => held)
            fun _ _ _ concluded => concluded.mono fun removable => removable temporary beside

/-- **A write is safe against crashes.** If nothing stands where the hidden file is to be,
then at every moment of a run, whichever steps are refused, the target is what it was or
the whole new file, and nothing else that was there changes; in the end the target is the
new file and no hidden file is left, or the write has failed and, if the hidden file could be
removed, all is as it was. The one exception are directories made for the path. -/
theorem crashSafe_atomicWrite (refusals : Refusals)
    (clear : ∀ temporary l, temporary? process path = some temporary → d.Denotes temporary l →
      d.tree.entryAt? l = none) (contents : Bytes) :
    (∀ seen, Moment refusals (atomicWrite process path contents) 0 d seen →
        d.Intact process path contents seen) ∧
      d.Concludes process path contents
        (∀ temporary taken, temporary? process path = some temporary →
          refusals taken (.remove temporary) = none)
        ((atomicWrite process path contents).runUnder refusals 0 d).1
        ((atomicWrite process path contents).runUnder refusals 0 d).2 := by
  have secured := @secures_atomicWrite d process path (Refuses refusals) clear contents
  refine ⟨fun seen moment => secured.moment refuses_of_eq_some moment, ?_⟩
  have ended := secured.ensures.runUnder refuses_of_eq_some 0
  refine ended.mono fun removable temporary beside => ?_
  rw [not_refuses_iff]
  intro taken
  exact removable temporary taken beside

/-- A disk with a file in a directory, to which a link leads as well. -/
def linkedNotes : Disk where
  tree := .directory
    [("docs".toList, .directory [("notes.md".toList, .file [1, 2, 3])]),
      ("latest".toList, .link "docs".toList)]

/-- The medium is full after two bytes of a write. -/
def fullMedium : Refusals
  | _, .write _ _ => some { error := .other "No space left on device".toList, written := 2 }
  | _, _ => none

/-- A write by way of a link is cut off when its hidden file holds two bytes. -/
theorem crashSafe_atomicWrite_fullMedium :
    let path := "latest/notes.md".toList
    let script := atomicWrite 7 path [4, 5, 6]
    (∀ temporary l, temporary? 7 path = some temporary → linkedNotes.Denotes temporary l →
        linkedNotes.tree.entryAt? l = none) ∧
      (∀ seen, Moment fullMedium script 0 linkedNotes seen →
        linkedNotes.Intact 7 path [4, 5, 6] seen) ∧
      linkedNotes.Concludes 7 path [4, 5, 6]
        (∀ temporary taken, temporary? 7 path = some temporary →
          fullMedium taken (.remove temporary) = none)
        (script.runUnder fullMedium 0 linkedNotes).1
        (script.runUnder fullMedium 0 linkedNotes).2 := by
  have clear : ∀ temporary l, temporary? 7 "latest/notes.md".toList = some temporary →
      linkedNotes.Denotes temporary l → linkedNotes.tree.entryAt? l = none := by
    intro temporary l beside denotes
    obtain rfl : "latest/.notes.md.7.tmp".toList = temporary := by
      rw [← Option.some_inj, ← beside]
      decide
    have leads : Leads linkedNotes.tree [] ["latest".toList] ["docs".toList] :=
      .follow ⟨by decide, by decide, by decide⟩ rfl
        (.enter ⟨by decide, by decide, by decide⟩ (fun _ => nofun) .done)
    have place : linkedNotes.Denotes "latest/.notes.md.7.tmp".toList
        ["docs".toList, ".notes.md.7.tmp".toList] :=
      ⟨["latest".toList], ".notes.md.7.tmp".toList, ["docs".toList], by decide,
        ⟨by decide, by decide, by decide⟩, leads, rfl⟩
    rw [denotes.unique place]
    rfl
  exact ⟨clear, crashSafe_atomicWrite fullMedium clear [4, 5, 6]⟩

/-- A path may pass by its own entry. The parent of `a/../a` is not there without `a`: the
directory is made, stands in the way of the file, and stays. -/
theorem atomicWrite_ownParent :
    let d : Disk := { tree := .directory [] }
    let path := "a/../a".toList
    (∀ temporary l, temporary? 7 path = some temporary → d.Denotes temporary l →
        d.tree.entryAt? l = none) ∧
      d.Denotes path ["a".toList] ∧ d.tree.entryAt? ["a".toList] = none ∧
      ((atomicWrite 7 path [1, 2, 3]).run d).1 = .error (.replace path .isDirectory) ∧
      ((atomicWrite 7 path [1, 2, 3]).run d).2.tree.entryAt? ["a".toList] = some .directory := by
  refine ⟨fun temporary l _ ⟨_, name, above, _, _, _, place⟩ => ?_,
    ⟨["a".toList, "..".toList], "a".toList, [], by decide, ⟨by decide, by decide, by decide⟩,
      .enter ⟨by decide, by decide, by decide⟩ (fun _ => nofun) (.up .done), rfl⟩, rfl, ?_, ?_⟩
  · rw [place]
    cases above <;> rfl
  · decide +kernel
  · decide +kernel

end Disk

end PromptDoc
