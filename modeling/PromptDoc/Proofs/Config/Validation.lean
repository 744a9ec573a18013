/-
# PromptDoc.Proofs.Config.Validation — which configs can be used

`Config.validate` goes through its checks in an order and stops at the first that
fails.  `Config.Usable` lists what a config needs, in no order and without saying how
it is checked: names are told by their characters (`IsTagName`), repetitions over all
three lists, the diff command by how it reads (`Words.Reads`), and the extensions by
what they begin with.  The two agree (`Config.validate_eq_ok_iff_usable`), since every
check finds nothing exactly where its part of the list holds.

The checks of the tags and of the diff command are made again when a document is
expanded, and nothing else can fail there: what a directive asks for and does not get
becomes a placeholder in its own place and a notice (`Config.expands_of_validate`).
-/
import PromptDoc.Proofs.Config.Words
import PromptDoc.Proofs.Expansion.Launches
import PromptDoc.Proofs.Segment.Unambiguous

namespace PromptDoc

set_option autoImplicit false

/-! ## What a config needs -/

def IsLetter (c : Char) : Prop := ('a' ≤ c ∧ c ≤ 'z') ∨ ('A' ≤ c ∧ c ≤ 'Z')

def IsDigit (c : Char) : Prop := '0' ≤ c ∧ c ≤ '9'

/-- A letter, followed by letters, digits and some punctuation. -/
structure IsTagName (tag : Text) : Prop where
  begins : ∃ c, tag.head? = some c ∧ IsLetter c
  continues : ∀ c ∈ tag.tail, IsLetter c ∨ IsDigit c ∨ c ∈ ['-', '_', '.', ':']

namespace Config

/-- What a config needs in order to be used. -/
structure Usable (c : Config) : Prop where
  spelled : c.spellings.context ≠ [] ∨ c.spellings.diff ≠ [] ∨ c.spellings.note ≠ []
  names : ∀ tag, tag ∈ c.spellings.context ∨ tag ∈ c.spellings.diff ∨ tag ∈ c.spellings.note →
    IsTagName tag
  /-- No spelling occurs twice, be it in one list or in two. -/
  once : (c.spellings.context ++ c.spellings.diff ++ c.spellings.note).Nodup
  command : ∃ program arguments, Words.Reads c.diffCommand (program :: arguments)
  extensions : ∀ entry ∈ c.languages.entries, entry.1 ≠ [] ∧ entry.1.head? ≠ some '.'

end Config

/-! ## One check after the other -/

theorem isLetter_iff {c : Char} : c.isAlpha = true ↔ IsLetter c := by
  show (decide ('A' ≤ c ∧ c ≤ 'Z') || (decide ('a' ≤ c) && decide (c ≤ 'z'))) = true ↔ _
  rw [Bool.or_eq_true, Bool.and_eq_true, decide_eq_true_eq, decide_eq_true_eq, decide_eq_true_eq]
  exact or_comm

theorem isDigit_iff {c : Char} : c.isDigit = true ↔ IsDigit c := by
  simp [Char.isDigit, IsDigit, Char.le_def]

namespace Spellings

theorem isNameChar_iff {c : Char} :
    isNameChar c = true ↔ IsLetter c ∨ IsDigit c ∨ c ∈ ['-', '_', '.', ':'] := by
  simp only [isNameChar, Char.isAlphanum, Bool.or_eq_true, isLetter_iff, isDigit_iff, beq_iff_eq,
    List.mem_cons, List.not_mem_nil, or_false, or_assoc]

theorem isName_iff {tag : Text} : isName tag = true ↔ IsTagName tag := by
  cases tag with
  | nil =>
      constructor
      · rintro ⟨⟩
      · rintro ⟨⟨c, begins, -⟩, -⟩
        cases begins
  | cons c cs =>
      simp only [isName, Bool.and_eq_true, List.all_eq_true, isLetter_iff, isNameChar_iff]
      constructor
      · rintro ⟨letter, more⟩
        exact ⟨⟨c, rfl, letter⟩, more⟩
      · rintro ⟨⟨_, same, letter⟩, more⟩
        cases same
        exact ⟨letter, more⟩

end Spellings

namespace Config

variable {c : Config}

theorem accepted_iff : c.spellings.Accepted ↔
    (c.spellings.context ≠ [] ∨ c.spellings.diff ≠ [] ∨ c.spellings.note ≠ []) ∧
      (∀ tag, tag ∈ c.spellings.context ∨ tag ∈ c.spellings.diff ∨ tag ∈ c.spellings.note →
        IsTagName tag) ∧
      (c.spellings.context ++ c.spellings.diff ++ c.spellings.note).Nodup := by
  have some_ : c.spellings.all ≠ [] ↔
      c.spellings.context ≠ [] ∨ c.spellings.diff ≠ [] ∨ c.spellings.note ≠ [] := by
    simp only [Spellings.all, ne_eq, List.append_eq_nil_iff, not_and_or, or_assoc]
  have listed : ∀ tag, tag ∈ c.spellings.all ↔
      tag ∈ c.spellings.context ∨ tag ∈ c.spellings.diff ∨ tag ∈ c.spellings.note := by
    simp only [Spellings.all, List.mem_append, or_assoc, implies_true]
  constructor
  · rintro ⟨nonempty, names, nodup⟩
    exact ⟨some_.1 nonempty, fun tag inside =>
      Spellings.isName_iff.1 (names tag ((listed tag).2 inside)), nodup⟩
  · rintro ⟨spelled, names, once⟩
    exact ⟨some_.2 spelled, fun tag inside =>
      Spellings.isName_iff.2 (names tag ((listed tag).1 inside)), once⟩

theorem exists_diffArgv_iff : (∃ command, c.diffArgv = .ok command) ↔
    ∃ program arguments, Words.Reads c.diffCommand (program :: arguments) := by
  simp only [← Words.split?_eq_some_iff]
  constructor
  · rintro ⟨command, parsed⟩
    unfold diffArgv at parsed
    split at parsed
    · cases parsed
    · cases parsed
    · rename_i program arguments words
      exact ⟨program, arguments, words⟩
  · rintro ⟨program, arguments, words⟩
    exact ⟨⟨program, arguments⟩, by rw [diffArgv, words]⟩

theorem extensionDefect?_eq_none_iff {extension : Text} :
    extensionDefect? extension = none ↔ extension ≠ [] ∧ extension.head? ≠ some '.' := by
  unfold extensionDefect?
  split
  · simp
  · simp
  · rename_i nonempty undotted
    refine iff_of_true rfl ⟨nonempty, fun dotted => ?_⟩
    obtain ⟨rest, rfl⟩ := List.head?_eq_some_iff.1 dotted
    exact undotted rest rfl

theorem defect?_eq_none_iff : c.defect? = none ↔
    c.spellings.Accepted ∧ (∃ command, c.diffArgv = .ok command) ∧
      ∀ entry ∈ c.languages.entries, extensionDefect? entry.1 = none := by
  rw [← Spellings.defect?_eq_none_iff, defect?]
  cases c.spellings.defect? with
  | some defect => simp
  | none => cases c.diffArgv <;> simp [List.findSome?_eq_none_iff]

/-- Validation finds nothing wrong exactly with what can be used. -/
theorem validate_eq_ok_iff_usable : c.validate = .ok () ↔ c.Usable := by
  simp only [validate_eq_ok_iff, defect?_eq_none_iff, accepted_iff, exists_diffArgv_iff,
    extensionDefect?_eq_none_iff]
  constructor
  · rintro ⟨⟨spelled, names, once⟩, command, extensions⟩
    exact ⟨spelled, names, once, command, extensions⟩
  · rintro ⟨spelled, names, once, command, extensions⟩
    exact ⟨⟨spelled, names, once⟩, command, extensions⟩

/-! ## What a config is good for -/

/-- **Validation is exact, and enough.**  A config is valid just if it has what a config needs, and
then every document can be expanded, whatever it asks for and whatever the disk and the programs
answer.  What cannot be had has a placeholder in its place in the text and a notice of its own. -/
theorem validate_iff_usable_and_expands (c : Config) :
    (c.validate = .ok () ↔ c.Usable) ∧
      (c.validate = .ok () → ∃ tags command, c.tagSet = .ok tags ∧ c.diffArgv = .ok command ∧
        ∀ (d : Disk) (programs : Programs) (root : Option Text) (text : Text),
          let s := Surroundings.standard d programs c command root
          ∃ r, expandDocument d programs c root text = .ok r ∧
            r.text = Format.collapse ("\n\n".toList.intercalate
              (((tags.segments text).map s.segmentText).filter (· ≠ []))) ∧
            r.notices.Perm (s.failures (tags.segments text))) := by
  refine ⟨validate_eq_ok_iff_usable, fun valid => ?_⟩
  obtain ⟨tags, command, tagged, parsed⟩ := exists_of_validate valid
  refine ⟨tags, command, tagged, parsed, fun d programs root text => ?_⟩
  exact ⟨_, expandDocument_eq tagged parsed, Surroundings.text_expand _ _,
    Surroundings.notices_expand _ _⟩

/-- A config with a diff command in quotes and a comment after it. -/
def quoted : Config where
  spellings := ⟨["ctx".toList], ["d.1".toList], []⟩
  diffCommand := "'git' \x22di\x22ff # all".toList
  languages := .ofList [("rs".toList, "rust".toList)]

def quotedTags : TagSet := ⟨quoted.spellings, Spellings.accepted_of_defect?_eq_none (by decide)⟩

/-- A document that asks for a diff twice, once against what looks like an option. -/
def asking : Text := "now <d.1/>\n<d.1 branch=\x22-x\x22/>".toList

theorem validate_iff_usable_and_expands_quoted : quoted.validate = .ok () ∧ quoted.Usable ∧
    ∃ r, expandDocument { tree := .directory [] } noPrograms quoted (some "/w".toList) asking =
        .ok r ∧
      r.text = "now\n\n[Failed to get diff]\n\n[Failed to get diff]".toList ∧
      r.notices.length = 2 := by
  have valid : quoted.validate = .ok () := by decide +kernel
  have tagged : quoted.tagSet = .ok quotedTags :=
    TagSet.ofSpellings_of_accepted quotedTags.accepted
  have parsed : quoted.diffArgv = .ok .gitDiff := by decide +kernel
  obtain ⟨usable, expands⟩ := validate_iff_usable_and_expands quoted
  obtain ⟨tags, command, tagged', parsed', all⟩ := expands valid
  obtain rfl := Except.ok.inj (tagged.symm.trans tagged')
  obtain rfl := Except.ok.inj (parsed.symm.trans parsed')
  obtain ⟨r, ok, text, notices⟩ :=
    all { tree := .directory [] } noPrograms (some "/w".toList) asking
  refine ⟨valid, usable.1 valid, r, ok, ?_, ?_⟩
  · rw [text]
    decide +kernel
  · rw [notices.length_eq]
    decide +kernel

end Config

end PromptDoc
