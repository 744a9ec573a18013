/-
# PromptDoc.Proofs.Document.History — versions order what happens to a document

A document takes a change or it stays as it is. `Document.Takes` says when it takes one:
a change from within if it makes another text of the document, a change from elsewhere if
its version is newer. `Document.apply_eq` is what every change does in these words, and
all that the rest of the module knows of it.

From one step the order of a whole run follows by induction on its changes: versions do
not decrease (`version_le_after`), and a document that is back at a version was never
changed in between (`after_eq_self`). `history_ordered` puts together what holds at any two
moments of a run. Versions are counted without a bound here; a counter of fixed width does
the same until it is full.
-/
import PromptDoc.Document.Versioned

namespace PromptDoc.Document

set_option autoImplicit false

/-- The text that a change is to give a document. -/
def Change.textFor (d : Document) : Change → Text
  | .edit text => text
  | .external text _ => text
  | .add tags paths => tags.addPaths d.text paths
  | .remove tags paths => tags.removePaths d.text paths

/-- The version that a document has when it has taken a change. -/
def Change.versionFor (d : Document) : Change → Nat
  | .external _ version => version
  | _ => d.version + 1

/-- When a document takes a change: one that was made elsewhere if it is newer, any other one if
the text differs. -/
def Takes (d : Document) : Change → Prop
  | .external _ version => d.version < version
  | change => change.textFor d ≠ d.text

variable {d : Document} {change : Change}

/-! ## One change -/

/-- A document takes a change or stays as it is. -/
theorem apply_eq [Decidable (d.Takes change)] :
    d.apply change =
      if d.Takes change then
        (true, { text := change.textFor d, version := change.versionFor d })
      else (false, d) := by
  cases change with
  | external text version =>
      by_cases newer : d.version < version
      · rw [if_pos (show d.Takes (.external text version) from newer)]
        exact if_neg (Nat.not_le.2 newer)
      · rw [if_neg (show ¬ d.Takes (.external text version) from newer)]
        exact if_pos (Nat.not_lt.1 newer)
  | edit text | add tags paths | remove tags paths =>
      rw [apply]
      split
      · rename_i differs
        exact if_neg differs
      · rename_i same
        exact if_pos (Classical.not_not.1 same)

/-- A change that is taken raises the version. -/
theorem Takes.version_lt (takes : d.Takes change) : d.version < change.versionFor d := by
  cases change with
  | external text version => exact takes
  | edit text | add tags paths | remove tags paths => exact Nat.lt_succ_self d.version

theorem apply_of_takes (takes : d.Takes change) :
    d.apply change = (true, { text := change.textFor d, version := change.versionFor d }) := by
  classical
  rw [apply_eq, if_pos takes]

theorem apply_of_not_takes (refuses : ¬ d.Takes change) : d.apply change = (false, d) := by
  classical
  rw [apply_eq, if_neg refuses]

/-- What a change answers and what it leaves: it answers that it took effect exactly if it raised
the version, which it does whenever the text differs, and it leaves the very same document else. -/
structure Ordered (before : Document) (change : Change) (took : Bool) (after : Document) :
    Prop where
  raises : took = true ↔ before.version < after.version
  kept : took = false → after = before
  differs : after.text ≠ before.text → before.version < after.version
  takes : took = true ↔ before.Takes change
  installs : took = true →
    after = { text := change.textFor before, version := change.versionFor before }

theorem ordered_apply (d : Document) (change : Change) :
    Ordered d change (d.apply change).1 (d.apply change).2 := by
  by_cases takes : d.Takes change
  · have newer := takes.version_lt
    rw [apply_of_takes takes]
    exact ⟨by simp [newer], nofun, fun _ => newer, by simp [takes], fun _ => rfl⟩
  · rw [apply_of_not_takes takes]
    exact ⟨by simp, fun _ => rfl, fun differs => absurd rfl differs, by simp [takes], nofun⟩

theorem version_le_apply (d : Document) (change : Change) :
    d.version ≤ (d.apply change).2.version := by
  have ordered := ordered_apply d change
  cases took : (d.apply change).1 with
  | true => exact Nat.le_of_lt (ordered.raises.1 took)
  | false => exact Nat.le_of_eq (congrArg version (ordered.kept took).symm)

/-- A change that does not raise the version leaves the document as it is. -/
theorem apply_eq_self (same : (d.apply change).2.version = d.version) :
    (d.apply change).2 = d := by
  have ordered := ordered_apply d change
  cases took : (d.apply change).1 with
  | true =>
      have newer := ordered.raises.1 took
      omega
  | false => exact ordered.kept took

/-! ## A run of changes -/

def after (d : Document) : List Change → Document
  | [] => d
  | change :: changes => (d.apply change).2.after changes

theorem after_append (d : Document) (first more : List Change) :
    d.after (first ++ more) = (d.after first).after more := by
  induction first generalizing d with
  | nil => rfl
  | cons change changes ih => exact ih (d.apply change).2

theorem version_le_after (d : Document) (changes : List Change) :
    d.version ≤ (d.after changes).version := by
  induction changes generalizing d with
  | nil => exact Nat.le_refl d.version
  | cons change changes ih =>
      have first := version_le_apply d change
      have later := ih (d.apply change).2
      exact Nat.le_trans first later

/-- A document that is at a version again was not changed in between. -/
theorem after_eq_self {changes : List Change} (same : (d.after changes).version = d.version) :
    d.after changes = d := by
  induction changes generalizing d with
  | nil => rfl
  | cons change changes ih =>
      have first := version_le_apply d change
      have later := version_le_after (d.apply change).2 changes
      rw [after] at same ⊢
      -- Both the first change and those behind it keep the version.
      have unmoved : (d.apply change).2.version = d.version := by omega
      have stays : (d.apply change).2 = d := apply_eq_self unmoved
      rw [stays] at same ⊢
      exact ih same

/-- **Versions order the history of a document.** At two moments of a run the later version is not
smaller, and equal versions have equal texts; a change from elsewhere that is not newer than the
earlier moment is refused at the later one; and every change does what its answer says. -/
theorem history_ordered (text : Text) (earlier later : List Change) :
    let first := ({ text } : Document).after earlier
    let last := ({ text } : Document).after (earlier ++ later)
    first.version ≤ last.version ∧
      (last.version = first.version → last.text = first.text) ∧
      (∀ stale version, version ≤ first.version →
        last.apply (.external stale version) = (false, last)) ∧
      ∀ change, Ordered last change (last.apply change).1
        (({ text } : Document).after (earlier ++ later ++ [change])) := by
  intro first last
  have onward : last = first.after later := after_append _ earlier later
  have grows : first.version ≤ last.version := by
    rw [onward]
    exact version_le_after first later
  refine ⟨grows, ?_, ?_, ?_⟩
  · intro same
    rw [onward] at same ⊢
    rw [after_eq_self same]
  · intro stale version old
    have refuses : ¬ last.Takes (.external stale version) := by
      show ¬ last.version < version
      omega
    exact apply_of_not_takes refuses
  · intro change
    rw [after_append _ (earlier ++ later)]
    exact ordered_apply last change

/-- A late update is refused after an edit, and a path that is listed already raises nothing. -/
example :
    let d : Document := { text := "<context>\na.rs\n</context>".toList }
    let edited := d.after [.edit "<context>\na.rs\nb.rs\n</context>".toList]
    edited.apply (.external [] 1) = (false, edited) ∧
      edited.apply (.add .standard [" b.rs".toList]) = (false, edited) ∧
      edited.apply (.external [] 7) = (true, { text := [], version := 7 }) := by
  decide +kernel

end PromptDoc.Document
