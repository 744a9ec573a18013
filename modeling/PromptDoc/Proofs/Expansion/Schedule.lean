/-
# PromptDoc.Proofs.Expansion.Schedule — jobs that run side by side

The segments of a document are resolved by jobs that run side by side, and so are the
paths of a context block. A `Job` is what such a job still has to do: questions to
the surroundings, notices, and waiting for the parts of which it joins the texts.
`Surroundings.Advances` lets any part that is at hand take the next step, and
`Surroundings.Runs` is a sequence of such steps with the events that it shows.

A step changes neither the text that a job ends with nor, but for their order, the
events that are still to come (`Advances.spec`), so a whole run shows them all
(`Runs.spec`). Since every step leaves less to do (`Advances.work_lt`) and a job
that is not done can take one (`exists_advances`), no schedule is stuck or endless.
`runs_expand` puts together what every schedule of a document asks, reports and
writes.
-/
import Mathlib.Algebra.GroupWithZero.Nat
import Mathlib.Data.List.Perm.Basic
import PromptDoc.Expansion.Expand

namespace PromptDoc

set_option autoImplicit false

/-- What the surroundings see of a job. -/
inductive Event where
  | call (call : Call)
  | notice (notice : Notice)
deriving DecidableEq, Repr

namespace Event

def call? : Event → Option Call
  | .call c => some c
  | .notice _ => none

def notice? : Event → Option Notice
  | .call _ => none
  | .notice n => some n

end Event

/-- What a job still has to do. A job that gathers waits until all of its parts are done. -/
inductive Job where
  | done (text : Text)
  | read (root path : Text) (resume : Except ExpandError Bytes → Job)
  | diff (root : Text) (branch : Option Text) (resume : Except ExpandError DiffOutput → Job)
  | notify (notice : Notice) (rest : Job)
  | gather (parts : List Job) (join : List Text → Text)

namespace Surroundings

variable (s : Surroundings)

/-! ## The jobs of a document -/

def giveUpPath (path : Text) (error : ExpandError) : Job :=
  .notify (.unreadable path error) (.done (Format.readFailed path))

def pathJob (path : Text) : Job :=
  match s.root with
  | none => giveUpPath path .noWorkspace
  | some root => .read root path fun
    | .error error => giveUpPath path error
    | .ok bytes => .done (Format.fileBlock path (s.language path) (Text.decodeLossy bytes))

def giveUpDiff (error : ExpandError) : Job := .notify (.noDiff error) (.done Format.diffFailed)

def diffJob (branch : Option Text) : Job :=
  match s.root with
  | none => giveUpDiff .noWorkspace
  | some root => .diff root branch fun answer =>
    match answer.bind DiffOutput.result with
    | .error error => giveUpDiff error
    | .ok output => .done (Format.diffBlock output)

def segmentJob : Segment → Job
  | .text content => .done (Text.trim content)
  | .note content => .done (Text.trim content)
  | .context paths => .gather (paths.map s.pathJob) ("\n\n".toList.intercalate ·)
  | .diff branch => s.diffJob branch

def documentJob (segments : List Segment) : Job :=
  .gather (segments.map s.segmentJob) Format.joinParts

/-! ## Steps and runs -/

/-- A job takes a step, which may be one of any of its parts, and shows the events. -/
inductive Advances : Job → List Event → Job → Prop
  | read {root path : Text} {resume : Except ExpandError Bytes → Job} :
      Advances (.read root path resume) [.call (.read root path)] (resume (s.read root path))
  | diff {root : Text} {branch : Option Text}
      {resume : Except ExpandError DiffOutput → Job} :
      Advances (.diff root branch resume) [.call (.diff root branch)]
        (resume (s.diff root branch))
  | notify {notice : Notice} {rest : Job} :
      Advances (.notify notice rest) [.notice notice] rest
  | part {front back : List Job} {part later : Job} {events : List Event}
      {join : List Text → Text} (step : Advances part events later) :
      Advances (.gather (front ++ part :: back) join) events
        (.gather (front ++ later :: back) join)
  | join {texts : List Text} {join : List Text → Text} :
      Advances (.gather (texts.map .done) join) [] (.done (join texts))

/-- Steps one after another, and the events in the order in which they are shown. -/
inductive Runs : Job → List Event → Job → Prop
  | rest (job : Job) : Runs job [] job
  | step {job next last : Job} {events more : List Event} (first : s.Advances job events next)
      (later : Runs next more last) : Runs job (events ++ more) last

/-! ## What a job comes to -/

mutual

def textOf : Job → Text
  | .done text => text
  | .read root path resume => textOf (resume (s.read root path))
  | .diff root branch resume => textOf (resume (s.diff root branch))
  | .notify _ rest => textOf rest
  | .gather parts join => join (textsOf parts)

def textsOf : List Job → List Text
  | [] => []
  | job :: jobs => textOf job :: textsOf jobs

end

mutual

/-- The events that a job shows when its parts take turns in their order. -/
def eventsOf : Job → List Event
  | .done _ => []
  | .read root path resume => .call (.read root path) :: eventsOf (resume (s.read root path))
  | .diff root branch resume => .call (.diff root branch) :: eventsOf (resume (s.diff root branch))
  | .notify notice rest => .notice notice :: eventsOf rest
  | .gather parts _ => eventsOfAll parts

def eventsOfAll : List Job → List Event
  | [] => []
  | job :: jobs => eventsOf job ++ eventsOfAll jobs

end

mutual

/-- The number of steps that a job takes. -/
def work : Job → Nat
  | .done _ => 0
  | .read root path resume => work (resume (s.read root path)) + 1
  | .diff root branch resume => work (resume (s.diff root branch)) + 1
  | .notify _ rest => work rest + 1
  | .gather parts _ => workOfAll parts + 1

def workOfAll : List Job → Nat
  | [] => 0
  | job :: jobs => work job + workOfAll jobs

end

theorem textsOf_eq (jobs : List Job) : s.textsOf jobs = jobs.map s.textOf := by
  induction jobs with
  | nil => rfl
  | cons job jobs ih => rw [textsOf, ih, List.map_cons]

theorem eventsOfAll_eq (jobs : List Job) : s.eventsOfAll jobs = jobs.flatMap s.eventsOf := by
  induction jobs with
  | nil => rfl
  | cons job jobs ih => rw [eventsOfAll, ih, List.flatMap_cons]

theorem workOfAll_eq (jobs : List Job) : s.workOfAll jobs = (jobs.map s.work).sum := by
  induction jobs with
  | nil => rfl
  | cons job jobs ih => rw [workOfAll, ih, List.map_cons, List.sum_cons]

/-! ## One step -/

variable {s} {job later : Job} {events : List Event}

/-- A step keeps the text that a job ends with, and what it shows is taken off the events that are
to come. -/
theorem Advances.spec (step : s.Advances job events later) :
    s.textOf later = s.textOf job ∧ (s.eventsOf job).Perm (events ++ s.eventsOf later) := by
  induction step with
  | read => exact ⟨by rw [textOf], by rw [eventsOf]; rfl⟩
  | diff => exact ⟨by rw [textOf], by rw [eventsOf]; rfl⟩
  | notify => exact ⟨by rw [textOf], by rw [eventsOf]; rfl⟩
  | @part front back part later events join step ih =>
      obtain ⟨text, shown⟩ := ih
      constructor
      · simp only [textOf, textsOf_eq, List.map_append, List.map_cons, text]
      · simp only [eventsOf, eventsOfAll_eq, List.flatMap_append, List.flatMap_cons]
        -- The parts in front keep their events, which move behind those of the step.
        refine ((shown.append_right _).append_left _).trans ?_
        rw [List.append_assoc]
        exact List.perm_append_comm_assoc _ _ _
  | @join texts join =>
      constructor
      · simp only [textOf, textsOf_eq, List.map_map]
        congr 1
        exact (List.map_id' texts).symm
      · simp [eventsOf, eventsOfAll_eq, List.flatMap_map]

/-- Every step leaves less to do. -/
theorem Advances.work_lt (step : s.Advances job events later) : s.work later < s.work job := by
  induction step with
  | read | diff | notify => rw [work]; omega
  | part step ih =>
      simp only [work, workOfAll_eq, List.map_append, List.map_cons, List.sum_append,
        List.sum_cons]
      omega
  | join => rw [work, work]; omega

mutual

/-- A job that is not done can take a step. -/
theorem exists_advances (s : Surroundings) :
    ∀ job : Job, (∃ text, job = .done text) ∨ ∃ events later, s.Advances job events later
  | .done text => .inl ⟨text, rfl⟩
  | .read _ _ _ => .inr ⟨_, _, .read⟩
  | .diff _ _ _ => .inr ⟨_, _, .diff⟩
  | .notify _ _ => .inr ⟨_, _, .notify⟩
  | .gather parts join => by
      rcases exists_part_advances s parts with ⟨texts, rfl⟩ | ⟨front, part, back, rfl, _, _, step⟩
      · exact .inr ⟨_, _, .join⟩
      · exact .inr ⟨_, _, .part step⟩

/-- Of jobs that are not all done, one can take a step. -/
theorem exists_part_advances (s : Surroundings) :
    ∀ jobs : List Job, (∃ texts : List Text, jobs = texts.map .done) ∨
      ∃ front part back, jobs = front ++ part :: back ∧
        ∃ events later, s.Advances part events later
  | [] => .inl ⟨[], rfl⟩
  | job :: jobs => by
      rcases exists_advances s job with ⟨text, rfl⟩ | step
      · rcases exists_part_advances s jobs with ⟨texts, rfl⟩ | ⟨front, part, back, rfl, step⟩
        · exact .inl ⟨text :: texts, rfl⟩
        · exact .inr ⟨.done text :: front, part, back, rfl, step⟩
      · exact .inr ⟨[], job, jobs, rfl, step⟩

end

/-! ## Whole runs -/

/-- A run keeps the text that a job ends with, and what it shows is taken off the events that are
to come. -/
theorem Runs.spec (run : s.Runs job events later) :
    s.textOf later = s.textOf job ∧ (s.eventsOf job).Perm (events ++ s.eventsOf later) := by
  induction run with
  | rest job => exact ⟨rfl, .refl _⟩
  | @step job next last events more first _ ih =>
      obtain ⟨text, shown⟩ := first.spec
      refine ⟨ih.1.trans text, shown.trans ?_⟩
      rw [List.append_assoc]
      exact ih.2.append_left events

/-- No job goes on for ever. -/
theorem acc_advances (s : Surroundings) (job : Job) :
    Acc (fun later earlier => ∃ events, s.Advances earlier events later) job := by
  have less := (measure s.work).wf.apply job
  induction less with
  | intro job _ ih => exact .intro job fun later ⟨_, step⟩ => ih later step.work_lt

/-- A job can be run to its end. -/
theorem exists_runs_done (s : Surroundings) (job : Job) :
    ∃ events text, s.Runs job events (.done text) := by
  induction acc_advances s job with
  | intro job _ ih =>
      rcases exists_advances s job with ⟨text, rfl⟩ | ⟨events, later, step⟩
      · exact ⟨[], text, .rest _⟩
      · obtain ⟨more, text, run⟩ := ih later ⟨events, step⟩
        exact ⟨events ++ more, text, .step step run⟩

/-! ## What the segments ask for -/

end Surroundings

namespace Segment

/-- The paths that a segment lists, each as often as it is listed. -/
def paths : Segment → List Text
  | .context paths => paths
  | _ => []

/-- The branch of the diff that a segment asks for, if it asks for one. -/
def branches : Segment → List (Option Text)
  | .diff branch => [branch]
  | _ => []

end Segment

namespace Surroundings

variable (s : Surroundings)

def readError? (path : Text) : Option ExpandError :=
  match s.root with
  | none => some .noWorkspace
  | some root =>
    match s.read root path with
    | .error error => some error
    | .ok _ => none

def diffError? (branch : Option Text) : Option ExpandError :=
  match s.root with
  | none => some .noWorkspace
  | some root =>
    match s.diff root branch with
    | .error error => some error
    | .ok output =>
      match output.exitCode with
      | none => some (.noDiff .killed)
      | some code =>
        if code = 0 ∨ code = 1 then none else some (.noDiff (.badStatus code output.stderr))

/-- What stands for a path: its file, or the placeholder for one that cannot be read. -/
def pathText (path : Text) : Text :=
  match s.root.map (s.read · path) with
  | some (.ok bytes) =>
    path ++ "\n```".toList ++ s.language path ++ "\n".toList ++
      Text.trim (Text.decodeLossy bytes) ++ "\n```".toList
  | _ => "[Failed to read: ".toList ++ path ++ "]".toList

/-- What stands for a diff: its output, or the placeholder for one that failed. -/
def diffText (branch : Option Text) : Text :=
  match s.root.map (s.diff · branch) with
  | some (.ok output) =>
    if output.exitCode = some 0 ∨ output.exitCode = some 1 then
      if Text.trim output.stdout = [] then "[No changes]".toList
      else "```diff\n".toList ++ Text.trim output.stdout ++ "\n```".toList
    else "[Failed to get diff]".toList
  | _ => "[Failed to get diff]".toList

def segmentText : Segment → Text
  | .text content => Text.trim content
  | .note content => Text.trim content
  | .context paths => "\n\n".toList.intercalate (paths.map s.pathText)
  | .diff branch => s.diffText branch

/-- The questions that segments put: none where there is no workspace. -/
def questions (segments : List Segment) : List Call :=
  match s.root with
  | none => []
  | some root =>
    (segments.flatMap Segment.paths).map (.read root) ++
      (segments.flatMap Segment.branches).map (.diff root)

/-- The failures that segments report. -/
def failures (segments : List Segment) : List Notice :=
  (segments.flatMap Segment.paths).filterMap (fun p => (s.readError? p).map (.unreadable p)) ++
    (segments.flatMap Segment.branches).filterMap fun b => (s.diffError? b).map .noDiff

/-- The failures of segments in words: the path or the diff, and why it failed. -/
def complaints (segments : List Segment) : List Text :=
  (segments.flatMap Segment.paths).filterMap (fun path => (s.readError? path).map fun error =>
    "Failed to read file: ".toList ++ path ++ " (".toList ++ error.message ++ ")".toList) ++
  (segments.flatMap Segment.branches).filterMap fun branch => (s.diffError? branch).map fun error =>
    "Failed to get diff: ".toList ++ error.message

/-! ## Texts and messages -/

theorem pathText_eq (path : Text) : s.pathText path =
    match s.root with
    | none => Format.readFailed path
    | some root =>
      match s.read root path with
      | .error _ => Format.readFailed path
      | .ok bytes => Format.fileBlock path (s.language path) (Text.decodeLossy bytes) := by
  rw [pathText]
  cases s.root with
  | none => rfl
  | some root =>
      dsimp only [Option.map_some]
      cases s.read root path with
      | error error => rfl
      | ok bytes => simp [Format.fileBlock, Format.fence]

theorem diffBlock_eq (output : Text) : Format.diffBlock output =
    if Text.trim output = [] then "[No changes]".toList
    else "```diff\n".toList ++ Text.trim output ++ "\n```".toList := by
  rw [Format.diffBlock]
  cases Text.trim output with
  | nil => rfl
  | cons c cs =>
      rw [if_neg (List.cons_ne_nil c cs)]
      simp [Format.fence]

theorem diffText_eq (branch : Option Text) : s.diffText branch =
    match s.root with
    | none => Format.diffFailed
    | some root =>
      match s.diff root branch with
      | .error _ => Format.diffFailed
      | .ok output =>
        if output.exitCode = some 0 ∨ output.exitCode = some 1 then Format.diffBlock output.stdout
        else Format.diffFailed := by
  rw [diffText]
  cases s.root with
  | none => rfl
  | some root =>
      dsimp only [Option.map_some]
      cases s.diff root branch with
      | error error => rfl
      | ok output =>
          simp only [diffBlock_eq]
          rfl

/-- A failure is told in the words for it. -/
theorem map_message_failures (segments : List Segment) :
    (s.failures segments).map Notice.message = s.complaints segments := by
  simp only [failures, complaints, List.map_append, List.map_filterMap, Option.map_map]
  rfl

/-! ## The resolved segments -/

theorem fileBlock_eq {root : Text} (workspace : s.root = some root) (path : Text) :
    s.fileBlock path = (s.read root path).map fun bytes =>
      Format.fileBlock path (s.language path) (Text.decodeLossy bytes) := by
  unfold fileBlock
  rw [workspace]
  show (s.read root path).bind _ = _
  cases s.read root path <;> rfl

theorem diffOutput_eq {root : Text} (workspace : s.root = some root) (branch : Option Text) :
    s.diffOutput branch = (s.diff root branch).bind DiffOutput.result := by
  unfold diffOutput
  rw [workspace]
  rfl

/-- Where there is no workspace, no file and no diff can be had. -/
theorem noWorkspace (workspace : s.root = none) :
    (∀ path, s.fileBlock path = .error .noWorkspace) ∧
      ∀ branch, s.diffOutput branch = .error .noWorkspace := by
  unfold fileBlock diffOutput
  rw [workspace]
  exact ⟨fun _ => rfl, fun _ => rfl⟩

theorem resolvePath_eq (path : Text) : s.resolvePath path =
    { text := s.pathText path
      calls := s.root.toList.map (.read · path)
      notices := ((s.readError? path).map (.unreadable path)).toList } := by
  cases workspace : s.root with
  | none => simp [resolvePath, (s.noWorkspace workspace).1, pathText_eq, readError?, workspace]
  | some root =>
      cases contents : s.read root path <;>
        simp [resolvePath, s.fileBlock_eq workspace, pathText_eq, readError?, workspace, contents,
          Except.map]

theorem resolveDiff_eq (branch : Option Text) : s.resolveDiff branch =
    { text := s.diffText branch
      calls := s.root.toList.map (.diff · branch)
      notices := ((s.diffError? branch).map .noDiff).toList } := by
  cases workspace : s.root with
  | none => simp [resolveDiff, (s.noWorkspace workspace).2, diffText_eq, diffError?, workspace]
  | some root =>
      cases answer : s.diff root branch with
      | error error =>
          simp [resolveDiff, s.diffOutput_eq workspace, diffText_eq, diffError?, workspace,
            answer, Except.bind]
      | ok output =>
          obtain ⟨code, stdout, stderr⟩ := output
          cases code with
          | none =>
              simp [resolveDiff, s.diffOutput_eq workspace, diffText_eq, diffError?, workspace,
                answer, Except.bind, DiffOutput.result]
          | some code =>
              by_cases fine : code = 0 ∨ code = 1 <;>
                simp [resolveDiff, s.diffOutput_eq workspace, diffText_eq, diffError?, workspace,
                  answer, Except.bind, DiffOutput.result, fine]

/-- What a segment resolves to, by the paths and branches that it holds. -/
theorem resolve_eq (segment : Segment) : s.resolve segment =
    { text := s.segmentText segment
      calls := s.root.toList.flatMap fun root =>
        segment.paths.map (.read root) ++ segment.branches.map (.diff root)
      notices := segment.paths.filterMap (fun p => (s.readError? p).map (.unreadable p)) ++
        segment.branches.filterMap fun b => (s.diffError? b).map .noDiff } := by
  cases segment with
  | text content => simp [resolve, segmentText, Segment.paths, Segment.branches]
  | note content => simp [resolve, segmentText, Segment.paths, Segment.branches]
  | context paths =>
      have asked : paths.flatMap (fun path => s.root.toList.map (Call.read · path)) =
          s.root.toList.flatMap fun root => paths.map (.read root) := by
        cases s.root <;> simp [List.map_eq_flatMap]
      simp [resolve, resolvePath_eq, segmentText, Segment.paths, Segment.branches,
        List.flatMap_map, Function.comp_def, asked, List.filterMap_eq_flatMap_toList]
  | diff branch =>
      have asked : s.root.toList.map (Call.diff · branch) =
          s.root.toList.flatMap fun root => [Call.diff root branch] := List.map_eq_flatMap
      simp [resolve, resolveDiff_eq, segmentText, Segment.paths, Segment.branches, asked,
        List.filterMap_eq_flatMap_toList]

theorem text_expand (segments : List Segment) : (s.expand segments).text =
    Format.collapse ("\n\n".toList.intercalate ((segments.map s.segmentText).filter (· ≠ []))) := by
  have texts : segments.map (fun segment => (s.resolve segment).text) =
      segments.map s.segmentText := by simp only [resolve_eq]
  rw [expand, List.map_map, Function.comp_def, texts, Format.joinParts]

/-- The questions of an expansion are those of its segments. -/
theorem calls_expand (segments : List Segment) :
    (s.expand segments).calls.Perm (s.questions segments) := by
  simp only [expand, List.flatMap_map, resolve_eq, questions]
  cases s.root with
  | none => simp
  | some root =>
      simp only [Option.toList_some, List.flatMap_singleton, List.map_flatMap]
      exact (List.flatMap_append_perm _ _ _).symm

/-- The notices of an expansion are the failures of its segments. -/
theorem notices_expand (segments : List Segment) :
    (s.expand segments).notices.Perm (s.failures segments) := by
  simp only [expand, List.flatMap_map, resolve_eq, failures, List.filterMap_flatMap]
  exact (List.flatMap_append_perm _ _ _).symm

/-! ## Jobs and resolutions -/

/-- A job ends with the text of a resolution and shows its questions and notices. -/
structure Resolves (job : Job) (r : Resolution) : Prop where
  text : s.textOf job = r.text
  calls : (s.eventsOf job).filterMap Event.call? = r.calls
  notices : (s.eventsOf job).filterMap Event.notice? = r.notices

variable {s}

/-- A job that gathers resolves to what its parts resolve to. -/
theorem Resolves.gather {α : Type} {jobOf : α → Job} {resolution : α → Resolution}
    (part : ∀ a, s.Resolves (jobOf a) (resolution a)) (as : List α) (join : List Text → Text) :
    s.Resolves (.gather (as.map jobOf) join)
      { text := join ((as.map resolution).map (·.text))
        calls := (as.map resolution).flatMap (·.calls)
        notices := (as.map resolution).flatMap (·.notices) } where
  text := by
    simp only [textOf, textsOf_eq, List.map_map, Function.comp_def, (part _).text]
  calls := by
    simp only [eventsOf, eventsOfAll_eq, List.flatMap_map, List.filterMap_flatMap, (part _).calls]
  notices := by
    simp only [eventsOf, eventsOfAll_eq, List.flatMap_map, List.filterMap_flatMap,
      (part _).notices]

variable (s)

theorem resolves_pathJob (path : Text) : s.Resolves (s.pathJob path) (s.resolvePath path) := by
  rw [resolvePath_eq]
  cases workspace : s.root with
  | none =>
      constructor <;>
        simp [pathJob, giveUpPath, workspace, textOf, eventsOf, pathText_eq, readError?,
          Event.call?, Event.notice?]
  | some root =>
      cases contents : s.read root path <;> constructor <;>
        simp [pathJob, giveUpPath, workspace, contents, textOf, eventsOf, pathText_eq, readError?,
          List.filterMap_cons, Event.call?, Event.notice?]

theorem resolves_diffJob (branch : Option Text) :
    s.Resolves (s.diffJob branch) (s.resolveDiff branch) := by
  cases workspace : s.root with
  | none =>
      constructor <;>
        simp [diffJob, giveUpDiff, resolveDiff, (s.noWorkspace workspace).2, workspace, textOf,
          eventsOf, Event.call?, Event.notice?]
  | some root =>
      cases answer : (s.diff root branch).bind DiffOutput.result <;> constructor <;>
        simp [diffJob, giveUpDiff, resolveDiff, s.diffOutput_eq workspace, workspace, answer,
          textOf, eventsOf, List.filterMap_cons, Event.call?, Event.notice?]

theorem resolves_segmentJob (segment : Segment) :
    s.Resolves (s.segmentJob segment) (s.resolve segment) := by
  cases segment with
  | text content => constructor <;> simp [segmentJob, resolve, textOf, eventsOf]
  | note content => constructor <;> simp [segmentJob, resolve, textOf, eventsOf]
  | context paths => exact .gather s.resolves_pathJob paths _
  | diff branch => exact s.resolves_diffJob branch

theorem resolves_documentJob (segments : List Segment) :
    s.Resolves (s.documentJob segments) (s.expand segments) :=
  .gather s.resolves_segmentJob segments _

/-- What a run of a document's jobs has asked, reported and written when it has come to its end. -/
theorem Runs.resolved {segments : List Segment} {events : List Event} {text : Text}
    (run : s.Runs (s.documentJob segments) events (.done text)) :
    text = (s.expand segments).text ∧
      (events.filterMap Event.call?).Perm (s.expand segments).calls ∧
      (events.filterMap Event.notice?).Perm (s.expand segments).notices := by
  obtain ⟨same, shown⟩ := run.spec
  have resolved := s.resolves_documentJob segments
  rw [eventsOf, List.append_nil] at shown
  refine ⟨?_, ?_, ?_⟩
  · rw [← resolved.text, ← same, textOf]
  · rw [← resolved.calls]
    exact shown.symm.filterMap Event.call?
  · rw [← resolved.notices]
    exact shown.symm.filterMap Event.notice?

/-- **The effects of an expansion do not depend on the schedule.** However the tasks take turns,
they all come to an end, and a run that has come to its end gives the text of the expansion, has
asked for each path and each diff once where there is a workspace and for nothing else, and has
reported each failure once, in the words for it, and nothing else. -/
theorem runs_expand (segments : List Segment) :
    Acc (fun later earlier => ∃ events, s.Advances earlier events later)
        (s.documentJob segments) ∧
      (∀ events job, s.Runs (s.documentJob segments) events job →
        ∃ more text, s.Runs job more (.done text)) ∧
      ∀ events text, s.Runs (s.documentJob segments) events (.done text) →
        text = (s.expand segments).text ∧
        text = Format.collapse
          ("\n\n".toList.intercalate ((segments.map s.segmentText).filter (· ≠ []))) ∧
        (events.filterMap Event.call?).Perm (s.questions segments) ∧
        (events.filterMap Event.notice?).Perm (s.failures segments) ∧
        ((events.filterMap Event.notice?).map Notice.message).Perm (s.complaints segments) := by
  refine ⟨acc_advances s _, fun _ job _ => exists_runs_done s job, fun events text run => ?_⟩
  obtain ⟨written, asked, told⟩ := run.resolved
  have failed := told.trans (s.notices_expand segments)
  refine ⟨written, written.trans (s.text_expand segments), asked.trans (s.calls_expand segments),
    failed, ?_⟩
  rw [← s.map_message_failures]
  exact failed.map Notice.message

/-- A workspace with one file, where a diff can be had only without a ref. -/
def halting : Surroundings where
  root := some "/w".toList
  read _ path :=
    if path = "a.rs".toList then .ok (Text.encode "fn a() {}\n".toList)
    else .error (.fileNotFound path)
  language _ := "rust".toList
  diff _ branch :=
    if branch = none then .ok { exitCode := some 1, stdout := "+x\n".toList, stderr := [] }
    else .ok { exitCode := some 2, stdout := [], stderr := "bad ref\n".toList }

/-- Segments that ask for more than there is. -/
def overasking : List Segment :=
  [.text "Look:\n".toList, .context ["gone.rs".toList, "a.rs".toList, "gone.rs".toList],
    .diff none, .diff (some "main".toList)]

theorem runs_expand_halting :
    (∃ events text, halting.Runs (halting.documentJob overasking) events (.done text) ∧
      text = ("Look:\n\n[Failed to read: gone.rs]\n\na.rs\n```rust\nfn a() {}\n```\n\n".toList ++
        "[Failed to read: gone.rs]\n\n```diff\n+x\n```\n\n[Failed to get diff]".toList) ∧
      (events.filterMap Event.call?).Perm
        [.read "/w".toList "gone.rs".toList, .read "/w".toList "a.rs".toList,
          .read "/w".toList "gone.rs".toList, .diff "/w".toList none,
          .diff "/w".toList (some "main".toList)] ∧
      ((events.filterMap Event.notice?).map Notice.message).Perm
        ["Failed to read file: gone.rs (file not found: gone.rs)".toList,
          "Failed to read file: gone.rs (file not found: gone.rs)".toList,
          "Failed to get diff: diff failed: exit code 2: bad ref".toList]) ∧
    ∀ events text, let homeless := { halting with root := none }
      homeless.Runs (homeless.documentJob [.context ["a.rs".toList], .diff none]) events
        (.done text) →
      text = "[Failed to read: a.rs]\n\n[Failed to get diff]".toList ∧
      events.filterMap Event.call? = [] ∧
      ((events.filterMap Event.notice?).map Notice.message).Perm
        ["Failed to read file: a.rs (no workspace folder found)".toList,
          "Failed to get diff: no workspace folder found".toList] := by
  constructor
  · obtain ⟨-, ends, spec⟩ := runs_expand halting overasking
    obtain ⟨events, text, run⟩ := ends [] _ (.rest _)
    obtain ⟨-, written, asked, -, told⟩ := spec events text run
    exact ⟨events, text, run, written.trans (by decide +kernel), asked,
      told.trans (.of_eq (by decide +kernel))⟩
  · intro events text homeless run
    obtain ⟨-, written, asked, -, told⟩ := (runs_expand homeless _).2.2 events text run
    exact ⟨written.trans (by decide +kernel), asked.eq_nil,
      told.trans (.of_eq (by decide +kernel))⟩

end Surroundings

end PromptDoc
