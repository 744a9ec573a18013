/-
# PromptDoc.Proofs.Expansion.Launches — what a document has started

The only programs that the expansion of a document starts are those of its diff tags, and
all that a diff tag has a say in is the last argument. `Command.launched` are the launches
that the questions of an expansion lead to; `Segment.launches` says which they are to be:
one for each diff segment whose ref is no option, and none for anything else.

* `launches_launching` settles one question, and `launched_expand` all those of an expansion;
* a run of the jobs of a document (`Surroundings.Runs`) puts the questions of the expansion
  in some order, so it starts the same programs however the jobs take turns
  (`Runs.launched_perm`);
* what other programs would answer makes no difference (`expand_congr`), so nothing else is
  started behind this account;
* the ref is what the tag has between its quotes (`asksFor_of_mem`).

`launched_expandDocument` puts them together for every document and every valid config.
-/
import PromptDoc.Expansion.Standard
import PromptDoc.Proofs.Expansion.Schedule
import PromptDoc.Proofs.Segment.Scan

namespace PromptDoc

set_option autoImplicit false

open Text

/-! ## Launches of one question -/

/-- A ref that a program could take for an option. -/
def IsOptionLike (ref : Text) : Prop := ref.head? = some '-'

instance (ref : Text) : Decidable (IsOptionLike ref) := inferInstanceAs (Decidable (_ = _))

namespace Command

variable {c : Command} {programs : Programs} {root : Text} {branch : Option Text}

def refOf (branch : Option Text) : Text := branch.getD defaultRef

theorem launching_of_isOptionLike (option : IsOptionLike (refOf branch)) :
    c.launching root branch = .done (.error (.noDiff (.optionLikeRef (refOf branch)))) :=
  if_pos option

/-- A ref that is no option is the last argument of the one program that is launched. -/
theorem launches_launching (c : Command) (programs : Programs) (root : Text)
    (branch : Option Text) :
    (c.launching root branch).launches programs =
      if IsOptionLike (refOf branch) then [] else [c.launch root (refOf branch)] := by
  by_cases option : IsOptionLike (refOf branch)
  · rw [launching_of_isOptionLike option, if_pos option, Launching.launches]
  · have started : c.launching root branch = .launch (c.launch root (refOf branch)) _ :=
      if_neg option
    rw [started, if_neg option, Launching.launches]
    cases programs (c.launch root (refOf branch)) <;> rfl

end Command

namespace Launching

variable {α : Type} {programs others : Programs}

/-- Programs that answer the launches that are tried in the same way come to the same. -/
theorem run_congr {launching : Launching α}
    (same : ∀ l ∈ launching.launches programs, others l = programs l) :
    launching.run others = launching.run programs := by
  induction launching with
  | done a => rfl
  | launch first rest ih =>
      have here : others first = programs first := same first List.mem_cons_self
      rw [run, run, here]
      exact ih _ fun l later => same l (List.mem_cons_of_mem _ later)

end Launching

/-! ## Launches of an expansion -/

namespace Command

/-- The launches that answering questions leads to. -/
def launched (c : Command) (programs : Programs) (calls : List Call) : List Launch :=
  calls.flatMap fun
    | .read _ _ => []
    | .diff root branch => (c.launching root branch).launches programs

end Command

namespace Segment

/-- The launches that a segment is to lead to: of a diff whose ref is no option, one in the
workspace, with the ref behind the arguments of the command. -/
def launches (c : Command) (root : Option Text) : Segment → List Launch
  | .diff branch =>
    if IsOptionLike (Command.refOf branch) then []
    else root.toList.map fun directory =>
      { directory, program := c.program, arguments := c.arguments ++ [Command.refOf branch] }
  | _ => []

end Segment

namespace Surroundings

variable {d : Disk} {programs others : Programs} {c : Config} {command : Command}
  {root : Option Text}

/-- The questions of a segment lead to the launches that it is to lead to. -/
theorem launched_resolve (segment : Segment) :
    command.launched programs ((standard d programs c command root).resolve segment).calls =
      segment.launches command root := by
  cases segment with
  | text content => rfl
  | note content => rfl
  | context paths =>
      simp only [resolve, Command.launched, List.flatMap_map, List.flatMap_assoc, resolvePath]
      cases root <;> simp [standard, Segment.launches]
  | diff branch =>
      have asked : ((standard d programs c command root).resolve (.diff branch)).calls =
          root.toList.map (.diff · branch) := by
        rw [resolve, resolveDiff_eq]
        rfl
      rw [asked, Segment.launches]
      cases root with
      | none => simp [Command.launched]
      | some directory =>
          by_cases option : IsOptionLike (Command.refOf branch) <;>
            simp [Command.launched, Command.launches_launching, option, Command.launch]

theorem launched_expand (segments : List Segment) :
    command.launched programs ((standard d programs c command root).expand segments).calls =
      segments.flatMap (Segment.launches command root) := by
  rw [expand, Command.launched, List.flatMap_map, List.flatMap_assoc]
  congr 1
  funext segment
  exact launched_resolve segment

/-- Whatever turns the jobs take, a run that has come to its end has led to the launches of the
expansion, and a run that has not has led to some of them. -/
theorem Runs.launched_perm {s : Surroundings} {segments : List Segment} {events : List Event}
    {job : Job} (run : s.Runs (s.documentJob segments) events job) :
    ∃ more, (command.launched programs (s.expand segments).calls).Perm
        (command.launched programs (events.filterMap Event.call?) ++ more) ∧
      ∀ text, job = .done text → more = [] := by
  refine ⟨command.launched programs ((s.eventsOf job).filterMap Event.call?), ?_, ?_⟩
  · rw [← (s.resolves_documentJob segments).calls, Command.launched, Command.launched,
      Command.launched, ← List.flatMap_append, ← List.filterMap_append]
    exact (run.spec.2.filterMap Event.call?).flatMap_right _
  · rintro text rfl
    rw [eventsOf]
    rfl

/-! ## What the answers of other programs change -/

/-- Diffs that are answered in the same way make the same expansion. -/
theorem expand_congr {s : Surroundings} {diff : Text → Option Text → Except ExpandError DiffOutput}
    {segments : List Segment}
    (same : ∀ branch, .diff branch ∈ segments → ∀ directory, s.root = some directory →
      diff directory branch = s.diff directory branch) :
    ({ s with diff } : Surroundings).expand segments = s.expand segments := by
  have resolved : segments.map ({ s with diff } : Surroundings).resolve =
      segments.map s.resolve := by
    refine List.map_congr_left fun segment inside => ?_
    cases segment with
    | text content => rfl
    | note content => rfl
    | context paths => rfl
    | diff branch =>
        rw [resolve, resolve, resolveDiff_eq, resolveDiff_eq, diffText_eq, diffText_eq, diffError?,
          diffError?]
        cases workspace : s.root with
        | none => simp
        | some directory => simp [same branch inside directory workspace]
  rw [expand, expand, resolved]

/-- What the programs would answer to any other launch makes no difference to an expansion. -/
theorem expand_standard_congr {segments : List Segment}
    (same : ∀ l ∈ segments.flatMap (Segment.launches command root), others l = programs l) :
    (standard d others c command root).expand segments =
      (standard d programs c command root).expand segments := by
  show ({ standard d programs c command root with diff := command.diff others } :
    Surroundings).expand segments = _
  refine expand_congr fun branch inside directory workspace => ?_
  refine Launching.run_congr fun l tried => same l ?_
  refine List.mem_flatMap.2 ⟨.diff branch, inside, ?_⟩
  rw [← @launched_resolve d programs c command root, resolve, resolveDiff_eq]
  simp [Command.launched, workspace, tried]

end Surroundings

/-! ## Where a ref comes from -/

/-- The source of a diff tag and the ref that it asks for: the value between its quotes, or `HEAD`
if there is no value or an empty one. -/
inductive TagSet.AsksFor (tags : TagSet) : Text → Text → Prop
  | absent {tag blanks : Text} (known : tag ∈ tags.diff) (blank : Blank blanks) :
      tags.AsksFor (['<'] ++ tag ++ blanks ++ ['/', '>']) Command.defaultRef
  | present {tag gap value blanks : Text} (known : tag ∈ tags.diff) (apart : gap ≠ [])
      (blankGap : Blank gap) (quoted : '\x22' ∉ value) (blank : Blank blanks) :
      tags.AsksFor (['<'] ++ tag ++ (gap ++ "branch=\"".toList ++ value ++ ['\x22']) ++ blanks ++
        ['/', '>']) (if value = [] then Command.defaultRef else value)

namespace TagSet

variable {tags : TagSet} {t : Text}

theorem AsksFor.ref_ne_nil {source ref : Text} (asks : tags.AsksFor source ref) : ref ≠ [] := by
  cases asks with
  | absent known blank => exact List.cons_ne_nil _ _
  | present known apart blankGap quoted blank =>
      split
      · exact List.cons_ne_nil _ _
      · assumption

/-- A diff segment is read from a tag that asks for its ref. -/
theorem asksFor_of_mem {p : Piece} {branch : Option Text} (inside : p ∈ tags.pieces t)
    (diff : p.segment = .diff branch) : tags.AsksFor p.source (Command.refOf branch) := by
  cases isPiece_of_mem inside with
  | text => cases diff
  | @directive source tag segment begins =>
      cases begins with
      | context known block => cases diff
      | note known block => cases diff
      | diff known named blank text =>
          obtain rfl := Segment.diff.inj diff
          rw [List.append_nil] at text
          simp only [text]
          cases named with
          | absent =>
              rw [List.append_nil]
              exact .absent known blank
          | present apart blankGap quoted =>
              have written := AsksFor.present known apart blankGap quoted blank
              rw [Command.refOf]
              split
              · rename_i empty
                rwa [if_pos empty] at written
              · rename_i given
                rwa [if_neg given] at written

end TagSet

/-! ## Documents and configs -/

theorem Config.validate_eq_ok_iff {c : Config} : c.validate = .ok () ↔ c.defect? = none := by
  rw [validate]
  cases c.defect? <;> simp

/-- A valid config has a tag set and a diff command. -/
theorem Config.exists_of_validate {c : Config} (valid : c.validate = .ok ()) :
    ∃ tags command, c.tagSet = .ok tags ∧ c.diffArgv = .ok command := by
  have sound : c.defect? = none := validate_eq_ok_iff.1 valid
  rw [defect?] at sound
  split at sound
  · cases sound
  · rename_i accepted
    split at sound
    · cases sound
    · rename_i command parsed
      have tagged : ∃ tags, c.tagSet = .ok tags := by
        rw [tagSet, TagSet.ofSpellings]
        split
        · rename_i defect found
          rw [accepted] at found
          cases found
        · exact ⟨_, rfl⟩
      obtain ⟨tags, tagged⟩ := tagged
      exact ⟨tags, command, tagged, parsed⟩

theorem expandDocument_eq {d : Disk} {programs : Programs} {c : Config} {root : Option Text}
    {text : Text} {tags : TagSet} {command : Command} (tagged : c.tagSet = .ok tags)
    (parsed : c.diffArgv = .ok command) :
    expandDocument d programs c root text =
      .ok ((Surroundings.standard d programs c command root).expand (tags.segments text)) := by
  rw [expandDocument, tagged, parsed]
  rfl

/-- A refused ref leaves a placeholder and one notice. -/
theorem Surroundings.resolve_of_isOptionLike {d : Disk} {programs : Programs} {c : Config}
    {command : Command} {root : Option Text} {branch : Option Text}
    (option : IsOptionLike (Command.refOf branch)) :
    ∃ error, (standard d programs c command root).resolve (.diff branch) =
      { text := Format.diffFailed, calls := root.toList.map (.diff · branch)
        notices := [.noDiff error] } := by
  have refused : ∀ directory, (standard d programs c command root).diff directory branch =
      .error (.noDiff (.optionLikeRef (Command.refOf branch))) := by
    intro directory
    show (command.launching directory branch).run programs = _
    rw [Command.launching_of_isOptionLike option, Launching.run]
  rw [resolve, resolveDiff_eq, diffText_eq, diffError?]
  cases root with
  | none => exact ⟨_, rfl⟩
  | some directory =>
      simp only [refused]
      exact ⟨_, rfl⟩

/-- **A document has a say in nothing that is started but the last argument.** A valid config expands
every document. However the jobs of the expansion take turns, they start one program for each diff
tag whose ref is no option, and none without a workspace: the configured command, in the workspace,
with the ref of the tag as its one further argument. A tag with another ref leaves a placeholder and
one notice. What any other launch would be answered makes no difference. -/
theorem launched_expandDocument {c : Config} (valid : c.validate = .ok ()) (d : Disk)
    (programs : Programs) (root : Option Text) (text : Text) :
    ∃ tags command, c.tagSet = .ok tags ∧ c.diffArgv = .ok command ∧
      let s := Surroundings.standard d programs c command root
      let due := (tags.segments text).flatMap (Segment.launches command root)
      expandDocument d programs c root text = .ok (s.expand (tags.segments text)) ∧
      (∀ events job, s.Runs (s.documentJob (tags.segments text)) events job →
        ∃ more, due.Perm (command.launched programs (events.filterMap Event.call?) ++ more) ∧
          ∀ output, job = .done output → more = [] ∧
            output = (s.expand (tags.segments text)).text ∧
            (events.filterMap Event.notice?).Perm (s.expand (tags.segments text)).notices) ∧
      (∀ l ∈ due, root = some l.directory ∧
        ∃ ref, l.program :: l.arguments = command.words ++ [ref] ∧ ref ≠ [] ∧
          ¬ IsOptionLike ref) ∧
      (∀ p ∈ tags.pieces text, ∀ branch, p.segment = .diff branch →
        tags.AsksFor p.source (Command.refOf branch) ∧
        (IsOptionLike (Command.refOf branch) →
          command.launched programs (s.resolve p.segment).calls = [] ∧
          (s.resolve p.segment).text = Format.diffFailed ∧
          (s.resolve p.segment).notices.length = 1)) ∧
      ∀ others : Programs, (∀ l ∈ due, others l = programs l) →
        expandDocument d others c root text = expandDocument d programs c root text := by
  obtain ⟨tags, command, tagged, parsed⟩ := Config.exists_of_validate valid
  refine ⟨tags, command, tagged, parsed, expandDocument_eq tagged parsed, ?_, ?_, ?_, ?_⟩
  · intro events job run
    obtain ⟨more, launched, finished⟩ :=
      @Surroundings.Runs.launched_perm programs command _ _ _ _ run
    rw [Surroundings.launched_expand] at launched
    refine ⟨more, launched, ?_⟩
    rintro output rfl
    obtain ⟨written, -, told⟩ := run.resolved
    exact ⟨finished output rfl, written, told⟩
  · intro l inside
    obtain ⟨segment, listed, launched⟩ := List.mem_flatMap.1 inside
    cases segment with
    | text content => cases launched
    | note content => cases launched
    | context paths => cases launched
    | diff branch =>
        obtain ⟨p, piece, diff⟩ := List.mem_map.1 listed
        rw [Segment.launches] at launched
        split at launched
        · cases launched
        · rename_i plain
          obtain ⟨directory, workspace, rfl⟩ := List.mem_map.1 launched
          exact ⟨Option.mem_toList.1 workspace, _, rfl,
            (TagSet.asksFor_of_mem piece diff).ref_ne_nil, plain⟩
  · intro p inside branch diff
    refine ⟨TagSet.asksFor_of_mem inside diff, fun option => ?_⟩
    obtain ⟨error, resolved⟩ :=
      @Surroundings.resolve_of_isOptionLike d programs c command root _ option
    have nothing : command.launched programs
        ((Surroundings.standard d programs c command root).resolve (.diff branch)).calls = [] := by
      rw [Surroundings.launched_resolve, Segment.launches, if_pos option]
    rw [diff]
    exact ⟨nothing, by rw [resolved], by rw [resolved]; rfl⟩
  · intro others same
    rw [expandDocument_eq tagged parsed, expandDocument_eq tagged parsed,
      Surroundings.expand_standard_congr same]

/-- Refs that look like an option and like a command, and an empty one. -/
def steering : Text :=
  "<diff branch=\"--output=x\"/>\n<diff\n branch=\"$(rm a); -x\" /><diff branch=\"\"/>".toList

def noPrograms : Programs := fun _ => .error (.refused .notFound)

theorem launched_expandDocument_steering :
    ({} : Config).validate = .ok () ∧
    ({} : Config).tagSet = .ok .standard ∧ ({} : Config).diffArgv = .ok .gitDiff ∧
    let s := Surroundings.standard { tree := .directory [] } noPrograms {} .gitDiff
      (some "/w".toList)
    ∀ events output, s.Runs (s.documentJob (TagSet.standard.segments steering)) events
        (.done output) →
      [⟨"/w".toList, "git".toList, ["diff".toList, "$(rm a); -x".toList]⟩,
        ⟨"/w".toList, "git".toList, ["diff".toList, "HEAD".toList]⟩].Perm
          (Command.gitDiff.launched noPrograms (events.filterMap Event.call?)) := by
  have valid : ({} : Config).validate = .ok () := by decide +kernel
  have tagged : ({} : Config).tagSet = .ok .standard := by rfl
  have parsed : ({} : Config).diffArgv = .ok .gitDiff := by decide +kernel
  have due : (TagSet.standard.segments steering).flatMap
      (Segment.launches .gitDiff (some "/w".toList)) =
      [⟨"/w".toList, "git".toList, ["diff".toList, "$(rm a); -x".toList]⟩,
        ⟨"/w".toList, "git".toList, ["diff".toList, "HEAD".toList]⟩] := by decide +kernel
  refine ⟨valid, tagged, parsed, ?_⟩
  intro s events output run
  obtain ⟨tags, command, tagged', parsed', -, runs, -⟩ := launched_expandDocument valid
    { tree := .directory [] } noPrograms (some "/w".toList) steering
  obtain rfl := Except.ok.inj (tagged.symm.trans tagged')
  obtain rfl := Except.ok.inj (parsed.symm.trans parsed')
  obtain ⟨more, launched, finished⟩ := runs events (.done output) run
  rw [(finished output rfl).1, List.append_nil, due] at launched
  exact launched

end PromptDoc
