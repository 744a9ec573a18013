/-
# PromptDoc.Proofs.CommandLine.Frame — what an edit leaves of the bytes of a document

A document is read as a text, whatever its bytes are, and written again as that text. The
first context block begins and ends with an ASCII character, so the bytes are cut around it
as the text is (`FirstBlock.exists_cut`), and what stands before and behind it is read and
written for itself. So `read_run_edit` says which bytes there are after a run: those from
before, or those with the block replaced and what is around it written again.

Bytes that are written again are the same if they are well-formed, and only then. An edit
does not keep a malformed byte that stands beside the block (`read_run_malformed`).
-/
import PromptDoc.Proofs.CommandLine.Editing
import PromptDoc.Proofs.Document.Adding
import PromptDoc.Proofs.Document.Removing
import PromptDoc.Proofs.Text.Decoding

namespace PromptDoc

set_option autoImplicit false

open Text

/-! ## The bytes of the first block -/

namespace TagSet.FirstBlock

variable {tags : TagSet} {contents : Bytes}

/-- Bytes are cut around the first block of the text that they are read as: from its `<` to its
`>`. -/
structure Cut (block : FirstBlock tags (decodeLossy contents)) (front middle back : Bytes) :
    Prop where
  whole : contents = front ++ middle ++ back
  before : decodeLossy front = Piece.join block.front
  inside : decodeLossy middle = block.source
  behind : decodeLossy back = Piece.join block.back

theorem exists_cut (block : FirstBlock tags (decodeLossy contents)) :
    ∃ front middle back, block.Cut front middle back := by
  obtain ⟨inner, source⟩ : ∃ inner, block.source = '<' :: (inner ++ ['>']) :=
    ⟨block.tag ++ ['>'] ++ block.inner ++ ['<', '/'] ++ block.tag, by
      simp [FirstBlock.source, openTag, closeTag]⟩
  have reads : decodeLossy contents =
      Piece.join block.front ++ '<' :: (inner ++ '>' :: Piece.join block.back) := by
    have whole := block.text_eq
    rw [source] at whole
    simpa using whole
  obtain ⟨front, rest, whole, before, reads'⟩ := exists_of_decodeLossy (by decide) reads
  obtain ⟨middle, back, rfl, inside, behind⟩ := exists_of_decodeLossy (by decide) reads'
  refine ⟨front, UInt8.ofNat '<'.toNat :: (middle ++ [UInt8.ofNat '>'.toNat]), back,
    by simp [whole], before, ?_, behind⟩
  rw [decodeLossy_byte_cons (by decide), decodeLossy_append_byte_cons (by decide), inside, source]
  rfl

end TagSet.FirstBlock

namespace CommandLine

/-! ## The text after an edit -/

namespace Edit

variable {tags : TagSet} {t : Text}

/-- What a list of paths is after an edit. -/
def listed (before paths : List Text) : Edit → List Text
  | .add => before ++ newPaths before paths
  | .remove => otherPaths before paths

/-- An edit writes the first block anew, or it changes nothing. -/
theorem apply_eq (edit : Edit) (block : tags.FirstBlock t) (paths : List Text) :
    edit.apply tags paths t =
      if edit.listed block.paths paths = block.paths then t
      else Piece.join block.front ++ renderBlock block.tag (edit.listed block.paths paths) ++
        Piece.join block.back := by
  cases edit with
  | add => simp only [apply, listed, block.addPaths_eq, List.append_right_eq_self]
  | remove => exact block.removePaths_eq paths

/-- An edit that changes a document changes the bytes of its first block, and what is around it is
written as it was read. -/
theorem encode_apply (edit : Edit) {contents front middle back : Bytes} {paths : List Text}
    {block : tags.FirstBlock (decodeLossy contents)} (cut : block.Cut front middle back)
    (changes : edit.apply tags paths (decodeLossy contents) ≠ decodeLossy contents) :
    encode (edit.apply tags paths (decodeLossy contents)) =
      encode (decodeLossy front) ++
        encode (renderBlock block.tag (edit.listed block.paths paths)) ++
          encode (decodeLossy back) := by
  have changed : edit.listed block.paths paths ≠ block.paths := by
    intro kept
    rw [edit.apply_eq block, if_pos kept] at changes
    exact changes rfl
  rw [edit.apply_eq block, if_neg changed, encode_append, encode_append, cut.before, cut.behind]

end Edit

namespace Machine

variable {m : Machine} {s : Session} {file : Text} {paths : List Text}

/-- **An edit leaves a document as it was, or with only its first context block replaced and the
bytes before and behind it written again.** It does the second if it succeeds and has something to
change, and then only the block is another one if the bytes around it are well-formed, and only if. It
fails only for a reason. -/
theorem read_run_edit (edit : Edit) (root : Option Text) (verbose : Bool) {tags : TagSet}
    {contents : Bytes} (opened : m.session root = .ok s) (tagged : s.config.tagSet = .ok tags)
    (readable : m.disk.read file = .ok contents)
    (has : ∃ listed, Segment.context listed ∈ tags.segments (decodeLossy contents))
    (free : m.NothingBeside file m.disk) :
    ∃ (block : tags.FirstBlock (decodeLossy contents)) (front middle back replaced : Bytes),
      block.Cut front middle back ∧
      replaced = encode (decodeLossy front) ++
        encode (renderBlock block.tag (edit.listed block.paths paths)) ++
          encode (decodeLossy back) ∧
      (∀ o, o = m.run { action := edit.action file paths, root, verbose } →
        (o.disk.read file = .ok contents ∨ o.disk.read file = .ok replaced) ∧
        (o.error = none → edit.apply tags paths (decodeLossy contents) ≠ decodeLossy contents →
          o.disk.read file = .ok replaced) ∧
        (o.error ≠ none → m.Hindered s file)) ∧
      (replaced = front ++ encode (renderBlock block.tag (edit.listed block.paths paths)) ++ back ↔
        (decode? front).isSome ∧ (decode? back).isSome) := by
  obtain ⟨block⟩ := TagSet.nonempty_firstBlock has
  obtain ⟨front, middle, back, cut⟩ := block.exists_cut
  refine ⟨block, front, middle, back, _, cut, rfl, ?_, encode_append_encode_eq_iff front _ back⟩
  rintro _ rfl
  obtain ⟨warnings, ran⟩ := run_action edit root verbose opened
  rw [ran, Machine.edit]
  cases opening : m.openDocument s file with
  | error error =>
      refine ⟨Or.inl readable, fun success => ?_, fun _ => Or.inl ⟨error, opening⟩⟩
      cases success
  | ok read =>
      obtain ⟨tags', document⟩ := read
      obtain ⟨tagged', contents', readable', rfl⟩ := openDocument_eq_ok opening
      obtain rfl := Except.ok.inj (tagged.symm.trans tagged')
      obtain rfl := Except.ok.inj (readable.symm.trans readable')
      by_cases same : edit.apply tags paths (decodeLossy contents) = decodeLossy contents
      · simp only [Edit.apply_change, if_pos same]
        exact ⟨Or.inl readable, fun _ other => absurd same other, fun failed => absurd rfl failed⟩
      · simp only [Edit.apply_change, if_neg same]
        rw [← edit.encode_apply cut same]
        rcases write_cases readable free (edit.apply tags paths (decodeLossy contents)) _ _
          with ⟨disk, wrote, replaces, -⟩ | ⟨disk, error, wrote, hindered, -, read⟩
        · rw [wrote]
          exact ⟨Or.inr replaces.read, fun _ _ => replaces.read, fun failed => absurd rfl failed⟩
        · rw [wrote]
          refine ⟨read, fun success => ?_, fun _ => hindered⟩
          cases success

/-- A document with well-formed text around its block and a malformed byte in it. -/
def malformedInside : Bytes :=
  encode "Blätter\n<context>\na.rs\n".toList ++ [0xFF, 0x0A] ++ encode "</context>\n…".toList

def removeInside : Request where
  action := Edit.remove.action "/notes.md".toList ["a.rs".toList]

/-- The path is removed, and what was malformed in the block is a path of its own. -/
theorem read_run_edit_malformedInside :
    (holding malformedInside).session none = .ok { root := "/".toList, config := {} } ∧
      Config.tagSet {} = .ok TagSet.standard ∧
      (holding malformedInside).disk.read "/notes.md".toList = .ok malformedInside ∧
      (∃ listed, Segment.context listed ∈
        TagSet.standard.segments (decodeLossy malformedInside)) ∧
      (holding malformedInside).NothingBeside "/notes.md".toList (holding malformedInside).disk ∧
      ∃ (block : TagSet.standard.FirstBlock (decodeLossy malformedInside))
        (front middle back replaced : Bytes),
        block.Cut front middle back ∧
        replaced = encode (decodeLossy front) ++
          encode (renderBlock block.tag (Edit.remove.listed block.paths ["a.rs".toList])) ++
            encode (decodeLossy back) ∧
        ((holding malformedInside).run removeInside).error = none ∧
        ((holding malformedInside).run removeInside).disk.read "/notes.md".toList = .ok replaced ∧
        replaced = encode "Blätter\n<context>\n\uFFFD\n</context>\n…".toList ∧
        (replaced = front ++
            encode (renderBlock block.tag (Edit.remove.listed block.paths ["a.rs".toList])) ++ back ↔
          (decode? front).isSome ∧ (decode? back).isSome) := by
  have tagged : Config.tagSet {} = .ok TagSet.standard := rfl
  have readable : (holding malformedInside).disk.read "/notes.md".toList = .ok malformedInside := rfl
  have has : Segment.context ["a.rs".toList, "\uFFFD".toList] ∈
      TagSet.standard.segments (decodeLossy malformedInside) := by decide +kernel
  have succeeds : ((holding malformedInside).run removeInside).error = none := by decide +kernel
  have written : ((holding malformedInside).run removeInside).disk.read "/notes.md".toList =
      .ok (encode "Blätter\n<context>\n\uFFFD\n</context>\n…".toList) := by decide +kernel
  obtain ⟨block, front, middle, back, replaced, cut, anew, ran, same⟩ :=
    read_run_edit .remove none false (session_holding _) tagged readable ⟨_, has⟩
      (nothingBeside_holding _)
  have read := (ran _ rfl).2.1 succeeds (by decide +kernel)
  exact ⟨session_holding _, tagged, readable, ⟨_, has⟩, nothingBeside_holding _, block, front,
    middle, back, replaced, cut, anew, succeeds, read, Except.ok.inj (read.symm.trans written),
    same⟩

/-- A document with a malformed byte in front of its block. -/
def malformed : Bytes := [0xFF, 0x0A] ++ encode "<context>\n</context>".toList ++ [0x0A]

/-- An edit that succeeds replaces a malformed byte in front of the block. -/
theorem read_run_malformed :
    (holding malformed).disk.read "/notes.md".toList = .ok malformed ∧
      Segment.context [] ∈ TagSet.standard.segments (decodeLossy malformed) ∧
      ((holding malformed).run addToNotes).error = none ∧
      ((holding malformed).run addToNotes).disk.read "/notes.md".toList =
        .ok (encode "\uFFFD\n<context>\na.rs\n</context>\n".toList) ∧
      ¬ ∃ inside, ((holding malformed).run addToNotes).disk.read "/notes.md".toList =
        .ok ([0xFF, 0x0A] ++ inside ++ [0x0A]) := by
  have read : ((holding malformed).run addToNotes).disk.read "/notes.md".toList =
      .ok (encode "\uFFFD\n<context>\na.rs\n</context>\n".toList) := by decide +kernel
  refine ⟨rfl, by decide +kernel, by decide +kernel, read, ?_⟩
  rintro ⟨inside, kept⟩
  have first : (encode "\uFFFD\n<context>\na.rs\n</context>\n".toList).head? = some 0xFF :=
    congrArg List.head? (Except.ok.inj (read.symm.trans kept))
  revert first
  decide

end Machine

end CommandLine

end PromptDoc
