/-
# PromptDoc.Proofs.Expansion.Collapse — runs of line feeds across a seam

`Format.collapse` reads a text with a count of the line feeds just before. The
count at the end of a text (`runAfter`) is all that the next text sees of it
(`collapseAfter_append`), so a seam that has no line feed on one of its sides is no
part of a run, and the two sides are shortened on their own (`collapse_append`).

Tight parts that are joined by a blank line are therefore shortened one by one:
`collapse_intercalate`, and `joinParts_eq` for parts of which some are empty.

A shortened text has no three line feeds in a row, and a text without them stays as it is
(`collapse_eq_self_iff`). Nothing but line feeds is left out, so a word without a line feed
that stands in the shortened text stands in the text too, between what is shortened to what
stands around it (`exists_of_collapse_eq`).
-/
import PromptDoc.Expansion.Format
import PromptDoc.Proofs.Text.Blanks
import PromptDoc.Proofs.Text.Cut

namespace PromptDoc.Format

set_option autoImplicit false

open Text

/-- The number of line feeds that a text ends with, at most two, after `run` line feeds. -/
def runAfter : Nat → Text → Nat
  | run, [] => run
  | run, c :: cs =>
    if c = '\n' then
      if run < 2 then runAfter (run + 1) cs else runAfter run cs
    else runAfter 0 cs

/-- Of what was written before, a text only sees the run that it ends with. -/
theorem collapseAfter_append (run : Nat) (a b : Text) :
    collapseAfter run (a ++ b) = collapseAfter run a ++ collapseAfter (runAfter run a) b := by
  induction a generalizing run with
  | nil => rfl
  | cons c cs ih =>
      rw [List.cons_append, collapseAfter, collapseAfter, runAfter]
      by_cases feed : c = '\n'
      · by_cases short : run < 2 <;> simp [feed, short, ih]
      · simp [feed, ih]

theorem runAfter_append (run : Nat) (a b : Text) :
    runAfter run (a ++ b) = runAfter (runAfter run a) b := by
  induction a generalizing run with
  | nil => rfl
  | cons c cs ih =>
      rw [List.cons_append, runAfter, runAfter]
      by_cases feed : c = '\n'
      · by_cases short : run < 2 <;> simp [feed, short, ih]
      · simp [feed, ih]

/-- No run goes on behind a character other than a line feed. -/
theorem runAfter_of_getLast {t : Text} (run : Nat) (nonempty : t ≠ [])
    (last : t.getLast? ≠ some '\n') : runAfter run t = 0 := by
  rcases List.eq_nil_or_concat' t with rfl | ⟨front, c, rfl⟩
  · exact absurd rfl nonempty
  · have other : c ≠ '\n' := by simpa using last
    rw [runAfter_append, runAfter, if_neg other, runAfter]

/-- No run goes on in a text that starts with another character. -/
theorem collapseAfter_of_head {t : Text} (run : Nat) (head : t.head? ≠ some '\n') :
    collapseAfter run t = collapse t := by
  cases t with
  | nil => rfl
  | cons c cs =>
      have other : c ≠ '\n' := by simpa using head
      rw [collapse, collapseAfter, collapseAfter, if_neg other, if_neg other]

/-- **No run crosses a seam that has no line feed on one of its sides.** -/
theorem collapse_append {a b : Text} (seam : a.getLast? ≠ some '\n' ∨ b.head? ≠ some '\n') :
    collapse (a ++ b) = collapse a ++ collapse b := by
  rw [collapse, collapseAfter_append, ← collapse]
  rcases seam with last | head
  · by_cases empty : a = []
    · rw [empty]
      rfl
    · rw [runAfter_of_getLast 0 empty last, ← collapse]
  · rw [collapseAfter_of_head _ head]

theorem collapse_nil : collapse [] = [] := rfl

theorem collapse_eq_nil_iff {t : Text} : collapse t = [] ↔ t = [] := by
  cases t with
  | nil => simp [collapse_nil]
  | cons c cs =>
      by_cases feed : c = '\n' <;> simp [collapse, collapseAfter, feed]

/-! ## Shortened texts -/

theorem three_feeds_not_infix (short : Nat) (le : short ≤ 2) :
    ¬ "\n\n\n".toList <:+: List.replicate short '\n' := by
  intro inside
  have size := inside.length_le
  rw [List.length_replicate] at size
  have three : "\n\n\n".toList.length = 3 := rfl
  omega

/-- Behind at most two line feeds there is no third one in what is written. -/
theorem not_infix_collapseAfter {run : Nat} (le : run ≤ 2) (t : Text) :
    ¬ "\n\n\n".toList <:+: List.replicate run '\n' ++ collapseAfter run t := by
  induction t generalizing run with
  | nil =>
      rw [collapseAfter, List.append_nil]
      exact three_feeds_not_infix run le
  | cons c cs ih =>
      rw [collapseAfter]
      by_cases feed : c = '\n'
      · rw [if_pos feed]
        by_cases short : run < 2
        · rw [if_pos short, List.append_cons, ← List.replicate_succ']
          exact ih short
        · rw [if_neg short]
          exact ih le
      · rw [if_neg feed]
        intro inside
        have free : c ∉ "\n\n\n".toList := by simpa using feed
        rcases infix_append_cons free inside with before | behind
        · exact three_feeds_not_infix run le before
        · exact ih (Nat.zero_le 2) behind

/-- A shortened text has no three line feeds in a row. -/
theorem not_infix_collapse (t : Text) : ¬ "\n\n\n".toList <:+: collapse t :=
  not_infix_collapseAfter (Nat.zero_le 2) t

/-- Where no third line feed follows two, nothing is left out. -/
theorem collapseAfter_of_not_infix {run : Nat} {t : Text} (le : run ≤ 2)
    (spaced : ¬ "\n\n\n".toList <:+: List.replicate run '\n' ++ t) : collapseAfter run t = t := by
  induction t generalizing run with
  | nil => rfl
  | cons c cs ih =>
      rw [collapseAfter]
      by_cases feed : c = '\n'
      · subst feed
        rw [List.append_cons, ← List.replicate_succ'] at spaced
        have short : run < 2 := by
          by_contra full
          obtain rfl : run = 2 := by omega
          exact spaced ⟨[], cs, rfl⟩
        rw [if_pos rfl, if_pos short, ih short spaced]
      · have behind : ¬ "\n\n\n".toList <:+: List.replicate 0 '\n' ++ cs := fun inside =>
          spaced (List.infix_append_of_infix_right (List.infix_cons inside))
        rw [if_neg feed, ih (Nat.zero_le 2) behind]

/-- **Nothing is left out of a text just if it has no three line feeds in a row.** -/
theorem collapse_eq_self_iff {t : Text} : collapse t = t ↔ ¬ "\n\n\n".toList <:+: t :=
  ⟨fun same => same ▸ not_infix_collapse t, collapseAfter_of_not_infix (Nat.zero_le 2)⟩

theorem collapse_collapse (t : Text) : collapse (collapse t) = collapse t :=
  collapse_eq_self_iff.2 (not_infix_collapse t)

/-! ## What a shortened text was -/

/-- Line feeds are all that is left out. -/
theorem mem_collapse {t : Text} {c : Char} (other : c ≠ '\n') (inside : c ∈ t) :
    c ∈ collapse t := by
  obtain ⟨a, b, rfl⟩ := List.append_of_mem inside
  have whole : collapse (a ++ c :: b) = collapse a ++ collapse (c :: b) :=
    collapse_append (Or.inr (by simpa using other))
  have kept : collapse (c :: b) = c :: collapse b := if_neg other
  simp [whole, kept]

theorem blank_of_collapse {t : Text} (blank : Blank (collapse t)) : Blank t := by
  intro c inside
  by_cases feed : c = '\n'
  · exact feed ▸ by decide
  · exact blank c (mem_collapse feed inside)

/-- A text is cut where the shortened one is. -/
theorem exists_of_collapseAfter_eq_append {run : Nat} {t a b : Text}
    (shortened : collapseAfter run t = a ++ b) :
    ∃ front back, t = front ++ back ∧ collapseAfter run front = a ∧
      collapseAfter (runAfter run front) back = b := by
  induction t generalizing run a with
  | nil =>
      obtain ⟨rfl, rfl⟩ := List.append_eq_nil_iff.1 shortened.symm
      exact ⟨[], [], rfl, rfl, rfl⟩
  | cons c cs ih =>
      cases a with
      | nil => exact ⟨[], c :: cs, rfl, rfl, shortened⟩
      | cons x a =>
          rw [collapseAfter] at shortened
          by_cases feed : c = '\n'
          · rw [if_pos feed] at shortened
            by_cases short : run < 2
            · rw [if_pos short] at shortened
              obtain ⟨rfl, later⟩ := List.cons.inj shortened
              obtain ⟨front, back, rfl, here, rest⟩ := ih later
              refine ⟨c :: front, back, rfl, ?_, ?_⟩
              · rw [collapseAfter, if_pos feed, if_pos short, here]
              · rw [runAfter, if_pos feed, if_pos short, rest]
            · rw [if_neg short] at shortened
              obtain ⟨front, back, rfl, here, rest⟩ := ih shortened
              refine ⟨c :: front, back, rfl, ?_, ?_⟩
              · rw [collapseAfter, if_pos feed, if_neg short, here]
              · rw [runAfter, if_pos feed, if_neg short, rest]
          · rw [if_neg feed] at shortened
            obtain ⟨rfl, later⟩ := List.cons.inj shortened
            obtain ⟨front, back, rfl, here, rest⟩ := ih later
            refine ⟨c :: front, back, rfl, ?_, ?_⟩
            · rw [collapseAfter, if_neg feed, here]
            · rw [runAfter, if_neg feed, rest]

/-- Before a character other than a line feed only line feeds are left out. -/
theorem exists_of_collapseAfter_eq_cons {run : Nat} {t b : Text} {c : Char} (other : c ≠ '\n')
    (shortened : collapseAfter run t = c :: b) :
    ∃ feeds rest, t = feeds ++ c :: rest ∧ collapseAfter run feeds = [] ∧ collapse rest = b := by
  induction t with
  | nil => cases shortened
  | cons x xs ih =>
      rw [collapseAfter] at shortened
      by_cases feed : x = '\n'
      · rw [if_pos feed] at shortened
        by_cases short : run < 2
        · rw [if_pos short] at shortened
          exact absurd (List.cons.inj shortened).1.symm other
        · rw [if_neg short] at shortened
          obtain ⟨feeds, rest, rfl, none_, later⟩ := ih shortened
          refine ⟨x :: feeds, rest, rfl, ?_, later⟩
          rw [collapseAfter, if_pos feed, if_neg short, none_]
      · rw [if_neg feed] at shortened
        obtain ⟨rfl, later⟩ := List.cons.inj shortened
        exact ⟨[], xs, rfl, rfl, later⟩

theorem exists_of_collapse_eq_append {t word b : Text} (free : '\n' ∉ word)
    (shortened : collapse t = word ++ b) : ∃ rest, t = word ++ rest ∧ collapse rest = b := by
  induction word generalizing t with
  | nil => exact ⟨t, rfl, shortened⟩
  | cons c word ih =>
      obtain ⟨first, free⟩ := not_or.1 (List.mem_cons.not.1 free)
      obtain ⟨feeds, rest, rfl, none_, later⟩ :=
        exists_of_collapseAfter_eq_cons (Ne.symm first) shortened
      obtain rfl := collapse_eq_nil_iff.1 none_
      obtain ⟨rest, rfl, behind⟩ := ih free later
      exact ⟨rest, rfl, behind⟩

/-- **A word without a line feed stands in a text where it stands in the shortened one.** -/
theorem exists_of_collapse_eq {t a word b : Text} (free : '\n' ∉ word) (nonempty : word ≠ [])
    (shortened : collapse t = a ++ word ++ b) :
    ∃ front back, t = front ++ word ++ back ∧ collapse front = a ∧ collapse back = b := by
  rw [List.append_assoc] at shortened
  obtain ⟨front, back, rfl, here, rest⟩ := exists_of_collapseAfter_eq_append shortened
  obtain ⟨c, word, rfl⟩ := List.exists_cons_of_ne_nil nonempty
  obtain ⟨first, free⟩ := not_or.1 (List.mem_cons.not.1 free)
  obtain ⟨feeds, back, rfl, none_, later⟩ :=
    exists_of_collapseAfter_eq_cons (Ne.symm first) rest
  obtain ⟨back, rfl, behind⟩ := exists_of_collapse_eq_append free later
  refine ⟨front ++ feeds, back, by simp, ?_, behind⟩
  rw [collapse, collapseAfter_append, none_, List.append_nil, here]

/-! ## Joined parts -/

theorem head_ne_newline {t : Text} (tight : Tight t) : t.head? ≠ some '\n' := by
  intro first
  exact absurd (tight.head '\n' first) (by decide)

theorem last_ne_newline {t : Text} (tight : Tight t) : t.getLast? ≠ some '\n' := by
  intro last
  exact absurd (tight.last '\n' last) (by decide)

/-- Tight parts one blank line apart are shortened on their own. -/
theorem collapse_intercalate {parts : List Text} (tight : ∀ p ∈ parts, Tight p)
    (nonempty : ∀ p ∈ parts, p ≠ []) :
    collapse ("\n\n".toList.intercalate parts) =
      "\n\n".toList.intercalate (parts.map collapse) := by
  induction parts with
  | nil => rfl
  | cons p ps ih =>
      cases ps with
      | nil => simp
      | cons q qs =>
          have tight' := fun r inside => tight r (List.mem_cons_of_mem p inside)
          have nonempty' := fun r inside => nonempty r (List.mem_cons_of_mem p inside)
          have joined : Tight ("\n\n".toList.intercalate (q :: qs)) :=
            Tight.intercalate tight' nonempty'
          have blankLine : collapse "\n\n".toList = "\n\n".toList := rfl
          rw [List.intercalate_cons_cons, List.append_assoc,
            collapse_append (Or.inl (last_ne_newline (tight p List.mem_cons_self))),
            collapse_append (Or.inr (head_ne_newline joined)), ih tight' nonempty', blankLine]
          simp only [List.map_cons, List.intercalate_cons_cons, List.append_assoc]

/-- The parts of a prompt are shortened on their own. -/
theorem joinParts_eq {parts : List Text} (tight : ∀ p ∈ parts, Tight p) :
    joinParts parts = "\n\n".toList.intercalate ((parts.map collapse).filter (· ≠ [])) := by
  have kept : ((parts.map collapse).filter (· ≠ [])) = (parts.filter (· ≠ [])).map collapse := by
    rw [List.filter_map]
    congr 2
    funext p
    simp [collapse_eq_nil_iff]
  rw [kept, joinParts]
  refine collapse_intercalate (fun p inside => ?_) fun p inside => ?_
  · exact tight p (List.mem_of_mem_filter inside)
  · simpa using List.of_mem_filter inside

/-- A tight text stays tight when it is shortened. -/
theorem tight_collapse {t : Text} (tight : Tight t) : Tight (collapse t) := by
  constructor
  · intro c first
    cases t with
    | nil => cases first
    | cons x xs =>
        have other : x ≠ '\n' := by simpa using head_ne_newline tight
        rw [show collapse (x :: xs) = x :: collapse xs from if_neg other] at first
        exact tight.head c first
  · intro c last
    rcases List.eq_nil_or_concat' t with rfl | ⟨front, x, rfl⟩
    · cases last
    · have other : x ≠ '\n' := by simpa using last_ne_newline tight
      have alone : collapse [x] = [x] := if_neg other
      rw [collapse_append (Or.inr (by simpa using other)), alone, List.getLast?_concat] at last
      exact tight.last c (by rw [List.getLast?_concat, last])

/-- A part on its own is shortened. -/
theorem joinParts_singleton (p : Text) : joinParts [p] = collapse p := by
  by_cases empty : p = [] <;> simp [joinParts, empty, collapse_nil]

end PromptDoc.Format
