/-
# PromptDoc.Proofs.FileTree.Script — what is sure of a script

`Script.Ensures` says what is sure of a script on a disk whichever steps the disk refuses,
among those that it may refuse. It is a weakest precondition: it goes through a script step
by step, with one case for the step as the tree of the disk has it and one for its refusal,
and through one script after another (`ensures_bind`). Every run is one of the runs that it
speaks of (`Ensures.runUnder`).

`Script.Moment` says which disks there are while a script runs, those in the midst of a
write included: what a run leaves that is cut off. `Script.Secures` is `Ensures` with
something that holds of each of them (`Secures.moment`).
-/
import PromptDoc.FileTree.Script

namespace PromptDoc.Script

set_option autoImplicit false

/-- What is sure of the result of a script and of the disk after it, if only certain steps
are refused. -/
def Ensures {α : Type} (refusable : Step → Prop) (sure : α → Disk → Prop) :
    Script α → Disk → Prop
  | .done a, d => sure a d
  | .step s rest, d =>
    Ensures refusable sure (rest (s.perform d).1) (s.perform d).2 ∧
      (refusable s → ∀ r : Refusal,
        Ensures refusable sure (rest (.error r.error)) (s.refused r d))

variable {α β : Type} {refusable : Step → Prop} {sure : α → Disk → Prop} {d : Disk}

theorem ensures_pure {a : α} : Ensures refusable sure (pure a) d ↔ sure a d := Iff.rfl

theorem ensures_bind {script : Script α} {next : α → Script β} {sure : β → Disk → Prop} :
    Ensures refusable sure (script >>= next) d ↔
      Ensures refusable (fun a d => Ensures refusable sure (next a) d) script d := by
  induction script generalizing d with
  | done a => exact Iff.rfl
  | step s rest ih =>
      exact and_congr (ih _) (forall_congr' fun _ => forall_congr' fun _ => ih _)

theorem Ensures.mono {weaker : α → Disk → Prop} {script : Script α}
    (ensured : Ensures refusable sure script d) (weaken : ∀ a d, sure a d → weaker a d) :
    Ensures refusable weaker script d := by
  induction script generalizing d with
  | done a => exact weaken a d ensured
  | step s rest ih => exact ⟨ih _ ensured.1, fun may r => ih _ (ensured.2 may r)⟩

/-- What is sure of a script holds of every run of it. -/
theorem Ensures.runUnder {refusals : Refusals} {script : Script α}
    (ensured : Ensures refusable sure script d)
    (only : ∀ taken s r, refusals taken s = some r → refusable s) (taken : Nat) :
    sure (script.runUnder refusals taken d).1 (script.runUnder refusals taken d).2 := by
  induction script generalizing taken d with
  | done a => exact ensured
  | step s rest ih =>
      rw [Script.runUnder]
      cases refused : refusals taken s with
      | none => exact ih _ ensured.1 (taken + 1)
      | some r => exact ih _ (ensured.2 (only taken s r refused) r) (taken + 1)

/-- That a disk refuses a step at some time. -/
def Refuses (refusals : Refusals) (s : Step) : Prop := ∃ taken r, refusals taken s = some r

theorem refuses_of_eq_some {refusals : Refusals} (taken : Nat) (s : Step) (r : Refusal)
    (refused : refusals taken s = some r) : Refuses refusals s :=
  ⟨taken, r, refused⟩

theorem not_refuses_iff {refusals : Refusals} {s : Step} :
    ¬Refuses refusals s ↔ ∀ taken, refusals taken s = none := by
  simp [Refuses, Option.eq_none_iff_forall_ne_some]

/-! ## Every moment of a run -/

/-- The disks that there are while a script runs: the one it starts on, those in the midst
of its steps, and those after them. Wherever a run is cut off, it leaves one of these. -/
inductive Moment (refusals : Refusals) : Script α → Nat → Disk → Disk → Prop
  | start {script taken d} : Moment refusals script taken d d
  /-- A write that is cut off has written as many bytes as one that is refused. -/
  | amid {s rest taken d} (r : Refusal) : Moment refusals (.step s rest) taken d (s.refused r d)
  | after {s rest taken d seen} : refusals taken s = none →
      Moment refusals (rest (s.perform d).1) (taken + 1) (s.perform d).2 seen →
      Moment refusals (.step s rest) taken d seen
  | afterRefusal {s rest taken d seen r} : refusals taken s = some r →
      Moment refusals (rest (.error r.error)) (taken + 1) (s.refused r d) seen →
      Moment refusals (.step s rest) taken d seen

/-- What is sure of a script in the end, where `held` is sure at every moment. -/
def Secures (refusable : Step → Prop) (held : Disk → Prop) (sure : α → Disk → Prop) :
    Script α → Disk → Prop
  | .done a, d => held d ∧ sure a d
  | .step s rest, d =>
    held d ∧ (∀ r : Refusal, held (s.refused r d)) ∧
      Secures refusable held sure (rest (s.perform d).1) (s.perform d).2 ∧
      (refusable s → ∀ r : Refusal,
        Secures refusable held sure (rest (.error r.error)) (s.refused r d))

variable {held : Disk → Prop}

theorem secures_pure {a : α} : Secures refusable held sure (pure a) d ↔ held d ∧ sure a d :=
  Iff.rfl

theorem Secures.start {script : Script α} (secured : Secures refusable held sure script d) :
    held d := by
  cases script with
  | done a => exact secured.1
  | step s rest => exact secured.1

theorem secures_bind {script : Script α} {next : α → Script β} {sure : β → Disk → Prop} :
    Secures refusable held sure (script >>= next) d ↔
      Secures refusable held (fun a d => Secures refusable held sure (next a) d) script d := by
  induction script generalizing d with
  | done a => exact ⟨fun secured => ⟨secured.start, secured⟩, And.right⟩
  | step s rest ih =>
      exact and_congr_right fun _ => and_congr_right fun _ =>
        and_congr (ih _) (forall_congr' fun _ => forall_congr' fun _ => ih _)

theorem Secures.mono {held' : Disk → Prop} {weaker : α → Disk → Prop} {script : Script α}
    (secured : Secures refusable held sure script d) (keep : ∀ d, held d → held' d)
    (weaken : ∀ a d, held d → sure a d → weaker a d) :
    Secures refusable held' weaker script d := by
  induction script generalizing d with
  | done a => exact ⟨keep d secured.1, weaken a d secured.1 secured.2⟩
  | step s rest ih =>
      obtain ⟨now, amid, next, refused⟩ := secured
      exact ⟨keep d now, fun r => keep _ (amid r), ih _ next, fun may r => ih _ (refused may r)⟩

theorem Secures.ensures {script : Script α} (secured : Secures refusable held sure script d) :
    Ensures refusable sure script d := by
  induction script generalizing d with
  | done a => exact secured.2
  | step s rest ih => exact ⟨ih _ secured.2.2.1, fun may r => ih _ (secured.2.2.2 may r)⟩

/-- What is held at every moment is held in the end. -/
theorem Secures.ensures_held {script : Script α} (secured : Secures refusable held sure script d) :
    Ensures refusable (fun a d => held d ∧ sure a d) script d :=
  (secured.mono (fun _ now => now) fun _ _ now ended => ⟨now, ended⟩).ensures

/-- A script that is secured keeps what is held at every moment of every run. -/
theorem Secures.moment {refusals : Refusals} {script : Script α} {taken : Nat} {seen : Disk}
    (secured : Secures refusable held sure script d)
    (only : ∀ taken s r, refusals taken s = some r → refusable s)
    (moment : Moment refusals script taken d seen) : held seen := by
  induction moment with
  | start => exact secured.start
  | amid r => exact secured.2.1 r
  | after _ _ ih => exact ih secured.2.2.1
  | afterRefusal refused _ ih => exact ih (secured.2.2.2 (only _ _ _ refused) _)

end PromptDoc.Script
