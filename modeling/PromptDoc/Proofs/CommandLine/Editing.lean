/-
# PromptDoc.Proofs.CommandLine.Editing — how a run that edits a document ends

Whatever stands on the disk and whichever steps it refuses, a run of `add` or `remove`
ends in one of three ways (`Ending`), told apart by what it prints: it fails, it finds
nothing to change, or it replaces the document. `existsUnique_ending` says what each of
them leaves on the disk. The middle of the argument is what is sure of a write
(`Disk.ensures_atomicWrite_of_read`); a document that can be read has a directory, so a
write to it makes none, which is why a failed one leaves nothing behind.
-/
import PromptDoc.CommandLine.Run
import PromptDoc.Proofs.FileTree.AtomicWrite

namespace PromptDoc.CommandLine

set_option autoImplicit false

/-- What a command does to the paths of a document. -/
inductive Edit where
  | add
  | remove

namespace Edit

def action (file : Text) (paths : List Text) : Edit → Action
  | .add => .add file paths
  | .remove => .remove file paths

def apply (tags : TagSet) (paths : List Text) (text : Text) : Edit → Text
  | .add => tags.addPaths text paths
  | .remove => tags.removePaths text paths

/-- An edit as a change of a document. -/
def change (paths : List Text) (tags : TagSet) : Edit → Document.Change
  | .add => .add tags paths
  | .remove => .remove tags paths

/-- A document changes if its text does. -/
theorem apply_change (edit : Edit) (d : Document) (tags : TagSet) (paths : List Text) :
    d.apply (edit.change paths tags) =
      if edit.apply tags paths d.text = d.text then (false, d)
      else (true, { text := edit.apply tags paths d.text, version := d.version + 1 }) := by
  cases edit <;> rfl

end Edit

/-- The ways in which a run that edits a document ends. -/
inductive Ending where
  | failed
  | unchanged
  | updated

namespace Machine

variable {m : Machine} {s : Session} {file : Text} {paths : List Text}

/-- Nothing stands where a write to a file puts its hidden file. -/
def NothingBeside (m : Machine) (file : Text) (d : Disk) : Prop :=
  ∀ temporary, AtomicWrite.temporary? m.process file = some temporary → d.Lacks temporary

/-- The hidden file that a write to a file puts beside it can always be removed. -/
def CanRemoveBeside (m : Machine) (file : Text) : Prop :=
  ∀ temporary, AtomicWrite.temporary? m.process file = some temporary →
    ∀ taken, m.refusals taken (.remove temporary) = none

/-- Why a run that edits a document may fail: the document or the tags cannot be read, the
disk refuses a step of a write, or the path of the hidden file cannot be walked. -/
def Hindered (m : Machine) (s : Session) (file : Text) : Prop :=
  (∃ error, m.openDocument s file = .error error) ∨
    AtomicWrite.Hindered m.disk m.process file fun step =>
      ∃ taken refusal, m.refusals taken step = some refusal

/-- What a run that ends in some way has done. -/
def Ends (m : Machine) (s : Session) (edit : Edit) (file : Text) (paths : List Text)
    (o : Outcome) : Ending → Prop
  | .failed =>
    (∃ error, o.error = some error) ∧ m.Hindered s file ∧
      (m.CanRemoveBeside file → o.disk = m.disk)
  | .unchanged =>
    o.error = none ∧ o.stdout = "No changes to ".toList ++ file ++ ['\n'] ∧ o.disk = m.disk ∧
      ∃ tags contents, s.config.tagSet = .ok tags ∧ m.disk.read file = .ok contents ∧
        edit.apply tags paths (Text.decodeLossy contents) = Text.decodeLossy contents
  | .updated =>
    o.error = none ∧
      ∃ tags contents text, s.config.tagSet = .ok tags ∧ m.disk.read file = .ok contents ∧
        text = edit.apply tags paths (Text.decodeLossy contents) ∧
        text ≠ Text.decodeLossy contents ∧
        o.stdout = "Updated ".toList ++ file ++ ['\n'] ++
          (tags.contextPaths text).flatMap (fun p => "  ".toList ++ p ++ ['\n']) ∧
        m.disk.Replaces file (Text.encode text) o.disk ∧ m.NothingBeside file o.disk

/-- A run does not end in two ways: it prints something else in each of them. -/
theorem Ends.unique {edit : Edit} {o : Outcome} {first second : Ending}
    (ends : m.Ends s edit file paths o first) (other : m.Ends s edit file paths o second) :
    first = second := by
  have printed : ∀ more : Text, "No changes to ".toList ++ file ++ ['\n'] ≠
      "Updated ".toList ++ file ++ ['\n'] ++ more := by
    intro more same
    have heads := congrArg List.head? same
    simp at heads
  cases first <;> cases second
  case failed.failed | unchanged.unchanged | updated.updated => rfl
  case failed.unchanged | failed.updated =>
    obtain ⟨⟨error, failed⟩, -⟩ := ends
    cases failed.symm.trans other.1
  case unchanged.failed | updated.failed =>
    obtain ⟨⟨error, failed⟩, -⟩ := other
    cases failed.symm.trans ends.1
  case unchanged.updated =>
    obtain ⟨-, said, -⟩ := ends
    obtain ⟨-, _, _, _, -, -, -, -, listed, -⟩ := other
    exact absurd (said.symm.trans listed) (printed _)
  case updated.unchanged =>
    obtain ⟨-, said, -⟩ := other
    obtain ⟨-, _, _, _, -, -, -, -, listed, -⟩ := ends
    exact absurd (said.symm.trans listed) (printed _)

theorem readFile_eq_ok {text : Text} (read : m.readFile file = .ok text) :
    ∃ contents, m.disk.read file = .ok contents ∧ text = Text.decodeLossy contents := by
  rw [readFile] at read
  cases unreadable : m.unreadable file with
  | some error => simp [unreadable] at read
  | none =>
      rw [unreadable] at read
      cases found : m.disk.read file with
      | error error => simp [found] at read
      | ok contents =>
          rw [found] at read
          cases read
          exact ⟨contents, rfl, rfl⟩

/-- A document that is opened was read from its file, with the tags of the config. -/
theorem openDocument_eq_ok {tags : TagSet} {document : Document}
    (opening : m.openDocument s file = .ok (tags, document)) :
    s.config.tagSet = .ok tags ∧ ∃ contents, m.disk.read file = .ok contents ∧
      document = { text := Text.decodeLossy contents } := by
  rw [openDocument] at opening
  cases tagged : s.config.tagSet with
  | error defect => simp [tagged, Except.mapError, bind, Except.bind] at opening
  | ok found =>
      rw [tagged] at opening
      cases read : m.readFile file with
      | error error => simp [read, Except.mapError, bind, Except.bind] at opening
      | ok text =>
          rw [read] at opening
          cases opening
          obtain ⟨contents, readable, rfl⟩ := readFile_eq_ok read
          exact ⟨rfl, contents, readable, rfl⟩

theorem run_action (edit : Edit) (root : Option Text) (verbose : Bool)
    (opened : m.session root = .ok s) :
    ∃ warnings, m.run { action := edit.action file paths, root, verbose } =
      m.edit s file (edit.change paths) warnings := by
  rw [run, opened]
  cases edit with
  | add => exact ⟨m.missing s paths, rfl⟩
  | remove => exact ⟨[], rfl⟩

/-- What a write to a document that can be read makes of what was to be told before it and
after it. -/
theorem write_cases {contents : Bytes} (readable : m.disk.read file = .ok contents)
    (free : m.NothingBeside file m.disk) (text : Text) (before after : Outcome) :
    (∃ disk, m.write file text before after = { after with disk } ∧
      m.disk.Replaces file (Text.encode text) disk ∧ m.NothingBeside file disk) ∨
    ∃ disk error, m.write file text before after = { before with disk, error := some error } ∧
      m.Hindered s file ∧ (m.CanRemoveBeside file → disk = m.disk) ∧
        (disk.read file = .ok contents ∨ disk.read file = .ok (Text.encode text)) := by
  let refusable (step : Step) : Prop := ∃ taken r, m.refusals taken step = some r
  have ensured := (@Disk.ensures_atomicWrite_of_read _ _ _ _ refusable readable free
    (Text.encode text)).runUnder (fun taken _ r refused => ⟨taken, r, refused⟩) 0
  rw [write]
  generalize (atomicWrite m.process file (Text.encode text)).runUnder m.refusals 0 m.disk = ran
    at ensured ⊢
  obtain ⟨result, disk⟩ := ran
  cases result with
  | ok _ => exact Or.inl ⟨disk, rfl, ensured⟩
  | error error =>
      obtain ⟨hindered, kept, read⟩ := ensured
      refine Or.inr ⟨disk, error, rfl, Or.inr hindered, fun removable => kept ?_, read⟩
      rintro temporary beside ⟨taken, r, refused⟩
      rw [removable temporary beside taken] at refused
      cases refused

/-- **A run that edits a document ends in exactly one of three ways.** It fails for a
reason, and the disk is as before if the hidden file could be removed; or the edit changes
nothing in the document, and nothing is written; or the document is replaced by its edited
text, nothing else differs, no hidden file is left, and its paths are listed. -/
theorem existsUnique_ending (edit : Edit) (root : Option Text) (verbose : Bool)
    (opened : m.session root = .ok s) (free : m.NothingBeside file m.disk) :
    ∃! ending, m.Ends s edit file paths
      (m.run { action := edit.action file paths, root, verbose }) ending := by
  refine existsUnique_of_exists_of_unique ?_ fun _ _ => Ends.unique
  obtain ⟨warnings, ran⟩ := run_action edit root verbose opened
  rw [ran, Machine.edit]
  cases opening : m.openDocument s file with
  | error error => exact ⟨.failed, ⟨error, rfl⟩, Or.inl ⟨error, opening⟩, fun _ => rfl⟩
  | ok read =>
      obtain ⟨tags, document⟩ := read
      obtain ⟨tagged, contents, readable, rfl⟩ := openDocument_eq_ok opening
      by_cases same :
          edit.apply tags paths (Text.decodeLossy contents) = Text.decodeLossy contents
      · refine ⟨.unchanged, ?_⟩
        simp only [Edit.apply_change, if_pos same]
        exact ⟨rfl, rfl, rfl, tags, contents, tagged, readable, same⟩
      · simp only [Edit.apply_change, if_neg same]
        rcases write_cases readable free (edit.apply tags paths (Text.decodeLossy contents)) _ _
          with ⟨disk, wrote, replaces, left⟩ | ⟨disk, error, wrote, hindered, kept, -⟩
        · refine ⟨.updated, ?_⟩
          rw [wrote]
          exact ⟨rfl, tags, contents, _, tagged, readable, rfl, same, rfl, replaces, left⟩
        · refine ⟨.failed, ?_⟩
          rw [wrote]
          exact ⟨⟨error, rfl⟩, hindered, kept⟩

/-- A machine whose disk holds one document. -/
def holding (contents : Bytes) : Machine where
  disk := { tree := .directory [("notes.md".toList, .file contents)] }
  programs := fun _ => .error (.refused .notFound)

theorem session_holding (contents : Bytes) :
    (holding contents).session none = .ok { root := "/".toList, config := {} } := by
  have root : Workspace.root (holding contents).disk (holding contents).programs none
      (holding contents).directory = .ok "/".toList := rfl
  have unset : (holding contents).disk.isFile (Path.join "/".toList Config.fileName) = false := rfl
  have config : Config.ofWorkspace (holding contents).disk "/".toList = .ok {} := by
    rw [Config.ofWorkspace, if_neg]
    rw [unset]
    exact Bool.false_ne_true
  rw [session, root]
  simp only [bind, Except.bind, config]
  rfl

theorem nothingBeside_holding (contents : Bytes) :
    (holding contents).NothingBeside "/notes.md".toList (holding contents).disk := by
  have named : AtomicWrite.temporary? 1 "/notes.md".toList = some "/.notes.md.1.tmp".toList := by
    decide +kernel
  have missing : (holding contents).disk.locate false "/.notes.md.1.tmp".toList =
      .ok (.missing [] ".notes.md.1.tmp".toList) := rfl
  intro temporary beside l
  cases named.symm.trans beside
  rw [missing]
  simp

def notes : Machine where
  disk := { tree := .directory [("notes.md".toList, .file (Text.encode "Look:\n".toList))] }
  programs := fun _ => .error (.refused .notFound)

theorem session_notes : notes.session none = .ok { root := "/".toList, config := {} } :=
  session_holding _

theorem nothingBeside_notes : notes.NothingBeside "/notes.md".toList notes.disk :=
  nothingBeside_holding _

def addToNotes : Request where
  action := Edit.add.action "/notes.md".toList ["a.rs".toList]

/-- A machine whose disk holds a document with two paths. -/
def pair : Machine := holding (Text.encode "<context>\na.rs\nb.rs\n</context>\n".toList)

/-- The same machine, with a disk that lets no file be replaced. -/
def sealedPair : Machine :=
  { pair with
    refusals := fun
      | _, .rename _ _ => some { error := .permissionDenied }
      | _, _ => none }

def removeFromPair : Request where
  action := Edit.remove.action "/notes.md".toList ["a.rs".toList]

/-- A path is added, one of two is removed, and one is not removed because the disk refuses to replace
the document, which is then as before. -/
theorem existsUnique_ending_notes :
    notes.session none = .ok { root := "/".toList, config := {} } ∧
      notes.NothingBeside "/notes.md".toList notes.disk ∧
      (notes.run addToNotes).stdout = "Updated /notes.md\n  a.rs\n".toList ∧
      (∃! ending, notes.Ends { root := "/".toList, config := {} } .add "/notes.md".toList
        ["a.rs".toList] (notes.run addToNotes) ending) ∧
      (pair.run removeFromPair).stdout = "Updated /notes.md\n  b.rs\n".toList ∧
      (∃! ending, pair.Ends { root := "/".toList, config := {} } .remove "/notes.md".toList
        ["a.rs".toList] (pair.run removeFromPair) ending) ∧
      (sealedPair.run removeFromPair).error =
        some (.replace "/notes.md".toList .permissionDenied) ∧
      (sealedPair.run removeFromPair).disk = sealedPair.disk := by
  have opened : sealedPair.session none = .ok { root := "/".toList, config := {} } :=
    session_holding _
  have error : (sealedPair.run removeFromPair).error =
      some (.replace "/notes.md".toList .permissionDenied) := by decide +kernel
  -- The run fails, so the disk is what a failed run leaves.
  obtain ⟨ending, ends, -⟩ := @existsUnique_ending sealedPair _ "/notes.md".toList
    ["a.rs".toList] .remove none false opened (nothingBeside_holding _)
  refine ⟨session_notes, nothingBeside_notes, by decide +kernel,
    existsUnique_ending .add none false session_notes nothingBeside_notes, by decide +kernel,
    existsUnique_ending .remove none false (session_holding _) (nothingBeside_holding _), error, ?_⟩
  cases ending with
  | failed => exact ends.2.2 fun _ _ _ => rfl
  | unchanged => cases error.symm.trans ends.1
  | updated => cases error.symm.trans ends.1

end Machine

end PromptDoc.CommandLine
