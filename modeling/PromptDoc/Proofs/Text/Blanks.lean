/-
# PromptDoc.Proofs.Text.Blanks — trimming, and the lines of a text

Trimming takes off a blank stretch at either end and leaves a text that has no
blank at its ends: `trim_spec` says so, and `trim_append_append` says that there
is no other such text, so every fact on trimming follows from the two.

`lineInduction` goes through a text line by line, and `unlines` writes lines with a
line feed behind each.
-/
import Mathlib.Data.List.DropRight
import Mathlib.Data.List.Infix
import PromptDoc.Text.Basic

namespace PromptDoc.Text

set_option autoImplicit false

/-! ## Blank texts and tight texts -/

def Blank (t : Text) : Prop := ∀ c ∈ t, isBlank c = true

/-- A text without a blank at its ends. -/
structure Tight (t : Text) : Prop where
  head : ∀ c, t.head? = some c → isBlank c = false
  last : ∀ c, t.getLast? = some c → isBlank c = false

theorem blank_nil : Blank [] := fun _ h => absurd h List.not_mem_nil

theorem blank_cons {c : Char} {t : Text} : Blank (c :: t) ↔ isBlank c = true ∧ Blank t :=
  List.forall_mem_cons

theorem blank_append {a b : Text} : Blank (a ++ b) ↔ Blank a ∧ Blank b := List.forall_mem_append

theorem blank_newline : Blank ['\n'] := blank_cons.2 ⟨by decide, blank_nil⟩

/-- A character that is no blank does not stand among blanks. -/
theorem Blank.not_mem {t : Text} {c : Char} (blank : Blank t) (solid : isBlank c = false) :
    c ∉ t := by
  intro inside
  rw [blank c inside] at solid
  cases solid

/-- A character that is no blank stands before the blanks at the end of a text. -/
theorem exists_append_blank {a b t blanks : Text} {c : Char} (solid : isBlank c = false)
    (blank : Blank blanks) (whole : a ++ c :: b = t ++ blanks) :
    ∃ more, t = a ++ c :: more ∧ b = more ++ blanks := by
  have free := blank.not_mem solid
  rcases List.append_eq_append_iff.1 whole with ⟨more, rfl, behind⟩ | ⟨more, rfl, behind⟩
  · cases more with
    | nil =>
        rw [List.nil_append] at behind
        simp [← behind] at free
    | cons m ms =>
        obtain ⟨rfl, rfl⟩ := List.cons.inj behind
        exact ⟨ms, rfl, rfl⟩
  · simp [behind] at free

/-- A needle that ends in such a character does not reach into blanks. -/
theorem infix_append_blank (needle : Text) {t blanks : Text} {c : Char} (solid : isBlank c = false)
    (blank : Blank blanks) : needle ++ [c] <:+: t ++ blanks ↔ needle ++ [c] <:+: t := by
  constructor
  · rintro ⟨a, b, whole⟩
    have whole : (a ++ needle) ++ c :: b = t ++ blanks := by simpa using whole
    obtain ⟨more, rfl, -⟩ := exists_append_blank solid blank whole
    exact ⟨a, more, by simp⟩
  · exact List.infix_append_of_infix_left

theorem tight_nil : Tight [] := ⟨fun _ h => by simp at h, fun _ h => by simp at h⟩

/-- A tight text of blanks is empty. -/
theorem Tight.eq_nil {t : Text} (tight : Tight t) (blank : Blank t) : t = [] := by
  cases t with
  | nil => rfl
  | cons c cs =>
      have solid := tight.head c rfl
      rw [blank c List.mem_cons_self] at solid
      cases solid

/-- A text between tight texts is tight with them. -/
theorem Tight.surround {a b : Text} (tightA : Tight a) (tightB : Tight b) (startsA : a ≠ [])
    (endsB : b ≠ []) (m : Text) : Tight (a ++ m ++ b) where
  head := by
    intro c first
    rw [List.append_assoc, List.head?_append_of_ne_nil _ startsA] at first
    exact tightA.head c first
  last := by
    intro c last
    rw [List.getLast?_append_of_ne_nil _ endsB] at last
    exact tightB.last c last

theorem intercalate_ne_nil {sep t : Text} (nonempty : t ≠ []) (ts : List Text) :
    sep.intercalate (t :: ts) ≠ [] := by
  cases ts <;> simp [nonempty]

theorem intercalate_append {sep : Text} {ts us : List Text} (nonempty : ts ≠ []) (further : us ≠ []) :
    sep.intercalate (ts ++ us) = sep.intercalate ts ++ sep ++ sep.intercalate us := by
  induction ts with
  | nil => exact absurd rfl nonempty
  | cons t ts ih =>
      by_cases last : ts = []
      · subst last
        rw [List.singleton_append, List.intercalate_cons_of_ne_nil further,
          List.intercalate_singleton]
      · have more : ts ++ us ≠ [] := by simp [last]
        rw [List.cons_append, List.intercalate_cons_of_ne_nil more, ih last,
          List.intercalate_cons_of_ne_nil last]
        simp

/-- What stands in a joined text, and not between its parts, stands in one of them. -/
theorem exists_of_mem_intercalate {sep : Text} {c : Char} {ts : List Text} (other : c ∉ sep)
    (inside : c ∈ sep.intercalate ts) : ∃ t ∈ ts, c ∈ t := by
  induction ts with
  | nil => simp at inside
  | cons t ts ih =>
      cases ts with
      | nil => exact ⟨t, List.mem_cons_self, by simpa using inside⟩
      | cons u us =>
          simp only [List.intercalate_cons_cons, List.mem_append, other, or_false] at inside
          rcases inside with here | later
          · exact ⟨t, List.mem_cons_self, here⟩
          · obtain ⟨v, listed, held⟩ := ih later
            exact ⟨v, List.mem_cons_of_mem t listed, held⟩

theorem mem_intercalate_of_mem {c : Char} {t : Text} {ts : List Text} (listed : t ∈ ts)
    (inside : c ∈ t) (sep : Text) : c ∈ sep.intercalate ts := by
  induction ts with
  | nil => cases listed
  | cons first ts ih =>
      cases ts with
      | nil => simpa [← List.mem_singleton.1 listed] using inside
      | cons next ts =>
          rw [List.intercalate_cons_cons]
          rcases List.mem_cons.1 listed with rfl | later
          · simp [inside]
          · simp [ih later]

/-- Tight texts stay tight when they are joined. -/
theorem Tight.intercalate {sep : Text} {ts : List Text} (tight : ∀ t ∈ ts, Tight t)
    (nonempty : ∀ t ∈ ts, t ≠ []) : Tight (sep.intercalate ts) := by
  induction ts with
  | nil => exact tight_nil
  | cons t ts ih =>
      cases ts with
      | nil => simpa using tight t List.mem_cons_self
      | cons u us =>
          have first := tight t List.mem_cons_self
          have later := ih (fun v inside => tight v (List.mem_cons_of_mem _ inside))
            fun v inside => nonempty v (List.mem_cons_of_mem _ inside)
          rw [List.intercalate_cons_cons]
          exact first.surround later (nonempty t List.mem_cons_self)
            (intercalate_ne_nil (nonempty u (by simp)) us) sep

/-! ## Trimming -/

theorem trimStart_append {a : Text} (blank : Blank a) (t : Text) :
    trimStart (a ++ t) = trimStart t :=
  List.dropWhile_append_of_pos blank

theorem trimStart_of_solid {c : Char} {t : Text} (solid : isBlank c = false) :
    trimStart (c :: t) = c :: t :=
  List.dropWhile_cons_of_neg (by simp [solid])

/-- What is taken off the front is blank. -/
theorem exists_trimStart (t : Text) : ∃ blanks, Blank blanks ∧ t = blanks ++ trimStart t :=
  ⟨t.takeWhile isBlank, fun _ inside => List.mem_takeWhile_imp inside,
    List.takeWhile_append_dropWhile.symm⟩

theorem head_trimStart {t : Text} {c : Char} (h : (trimStart t).head? = some c) :
    isBlank c = false := by
  have first := List.head?_dropWhile_not isBlank t
  rw [show (t.dropWhile isBlank).head? = some c from h] at first
  simpa using first

theorem trimEnd_eq (t : Text) : trimEnd t = t.rdropWhile isBlank := rfl

theorem trimEnd_append {b : Text} (blank : Blank b) (t : Text) : trimEnd (t ++ b) = trimEnd t := by
  rw [trimEnd, List.reverse_append,
    List.dropWhile_append_of_pos fun c inside => blank c (List.mem_reverse.1 inside), trimEnd]

theorem trimEnd_of_solid {t : Text} {c : Char} (solid : isBlank c = false) :
    trimEnd (t ++ [c]) = t ++ [c] := by
  rw [trimEnd_eq, List.rdropWhile_concat, if_neg (by simp [solid])]

/-- What is taken off the end is blank. -/
theorem exists_trimEnd (t : Text) : ∃ blanks, Blank blanks ∧ t = trimEnd t ++ blanks := by
  obtain ⟨blanks, blank, whole⟩ := exists_trimStart t.reverse
  refine ⟨blanks.reverse, fun c inside => blank c (List.mem_reverse.1 inside), ?_⟩
  rw [trimEnd, ← List.reverse_append]
  exact List.reverse_eq_iff.1 whole

theorem last_trimEnd {t : Text} {c : Char} (h : (trimEnd t).getLast? = some c) :
    isBlank c = false := by
  rw [trimEnd, List.getLast?_reverse] at h
  exact head_trimStart h

/-- Trimming takes off blanks and leaves a tight text. -/
theorem trim_spec (t : Text) :
    Tight (trim t) ∧ ∃ a b, Blank a ∧ Blank b ∧ t = a ++ trim t ++ b := by
  obtain ⟨a, blankA, front⟩ := exists_trimStart t
  obtain ⟨b, blankB, back⟩ := exists_trimEnd (trimStart t)
  refine ⟨⟨fun c first => ?_, fun c => last_trimEnd⟩, a, b, blankA, blankB, ?_⟩
  · apply head_trimStart (t := t)
    rw [back, List.head?_append, show (trimEnd (trimStart t)).head? = some c from first]
    rfl
  · rw [trim, List.append_assoc, ← back, ← front]

/-- A tight text is what trimming leaves of it and blanks around it. -/
theorem trim_append_append {a m b : Text} (blankA : Blank a) (tight : Tight m) (blankB : Blank b) :
    trim (a ++ m ++ b) = m := by
  rw [trim, List.append_assoc, trimStart_append blankA]
  cases m with
  | nil =>
      rw [List.nil_append, ← List.append_nil b, trimStart_append blankB]
      rfl
  | cons c cs =>
      rw [List.cons_append, trimStart_of_solid (tight.head c rfl), ← List.cons_append,
        trimEnd_append blankB]
      rcases List.eq_nil_or_concat' (c :: cs) with empty | ⟨front, last, whole⟩
      · cases empty
      · rw [whole]
        exact trimEnd_of_solid (tight.last last (by rw [whole, List.getLast?_concat]))

theorem tight_trim (t : Text) : Tight (trim t) := (trim_spec t).1

theorem trim_of_tight {t : Text} (tight : Tight t) : trim t = t := by
  simpa using trim_append_append blank_nil tight blank_nil

theorem tight_of_trim {t : Text} (same : trim t = t) : Tight t := same ▸ tight_trim t

theorem trim_trim (t : Text) : trim (trim t) = trim t := trim_of_tight (tight_trim t)

/-- Blanks around a text do not change what trimming leaves. -/
theorem trim_surround {a b : Text} (blankA : Blank a) (blankB : Blank b) (t : Text) :
    trim (a ++ t ++ b) = trim t := by
  obtain ⟨tight, x, y, blankX, blankY, whole⟩ := trim_spec t
  have outer := trim_append_append (blank_append.2 ⟨blankA, blankX⟩) tight
    (blank_append.2 ⟨blankY, blankB⟩)
  rw [← outer]
  nth_rewrite 1 [whole]
  simp only [List.append_assoc]

theorem trim_eq_nil_iff {t : Text} : trim t = [] ↔ Blank t := by
  constructor
  · intro empty
    obtain ⟨-, a, b, blankA, blankB, whole⟩ := trim_spec t
    rw [whole, empty]
    simpa using blank_append.2 ⟨blankA, blankB⟩
  · intro blank
    simpa using trim_append_append blank tight_nil blank_nil

theorem trim_isInfix (t : Text) : trim t <:+: t := by
  obtain ⟨-, a, b, -, -, whole⟩ := trim_spec t
  exact ⟨a, b, whole.symm⟩

/-- Trimming takes off blanks only. -/
theorem mem_trim {t : Text} {c : Char} (inside : c ∈ t) (solid : isBlank c = false) :
    c ∈ trim t := by
  obtain ⟨-, a, b, blankA, blankB, whole⟩ := trim_spec t
  rw [whole] at inside
  simpa [blankA.not_mem solid, blankB.not_mem solid] using inside

/-! ## Lines -/

theorem lines_of_not_mem {t : Text} (line : '\n' ∉ t) : lines t = [t] :=
  List.splitOn_eq_singleton line

theorem lines_append_newline (a b : Text) : lines (a ++ '\n' :: b) = lines a ++ lines b :=
  List.splitOn_append_cons_self a b

/-- A text is one line, or a line and a line feed before a text. -/
@[elab_as_elim]
theorem lineInduction {motive : Text → Prop} (last : ∀ line, '\n' ∉ line → motive line)
    (step : ∀ line t, '\n' ∉ line → motive t → motive (line ++ '\n' :: t)) (t : Text) :
    motive t := by
  obtain ⟨n, size⟩ : ∃ n, t.length = n := ⟨_, rfl⟩
  induction n using Nat.strong_induction_on generalizing t with
  | _ n ih =>
      by_cases broken : '\n' ∈ t
      · obtain ⟨line, rest, rfl, free⟩ := List.eq_append_cons_of_mem broken
        exact step line rest free (ih rest.length (by simp at size; omega) rest rfl)
      · exact last t broken

/-- Lines as a text, each with a line feed behind it. -/
def unlines (ls : List Text) : Text := ls.flatMap (· ++ ['\n'])

@[simp] theorem unlines_nil : unlines [] = [] := rfl

@[simp] theorem unlines_cons (l : Text) (ls : List Text) :
    unlines (l :: ls) = l ++ '\n' :: unlines ls := by
  simp [unlines]

theorem unlines_append (ls ms : List Text) : unlines (ls ++ ms) = unlines ls ++ unlines ms :=
  List.flatMap_append

theorem mem_unlines {c : Char} {ls : List Text} :
    c ∈ unlines ls ↔ ∃ l ∈ ls, c ∈ l ∨ c = '\n' := by
  simp [unlines]

theorem intercalate_newline_append {ls : List Text} (nonempty : ls ≠ []) :
    ['\n'].intercalate ls ++ ['\n'] = unlines ls := by
  induction ls with
  | nil => exact absurd rfl nonempty
  | cons l ls ih =>
      by_cases last : ls = []
      · simp [last]
      · rw [List.intercalate_cons_of_ne_nil last, List.append_assoc, ih last, unlines_cons]
        simp

theorem lines_unlines {ls : List Text} (free : ∀ l ∈ ls, '\n' ∉ l) :
    lines (unlines ls) = ls ++ [[]] := by
  induction ls with
  | nil => rfl
  | cons l ls ih =>
      obtain ⟨first, others⟩ := List.forall_mem_cons.1 free
      rw [unlines_cons, lines_append_newline, lines_of_not_mem first, ih others]
      rfl

theorem length_le_count_unlines (ls : List Text) : ls.length ≤ (unlines ls).count '\n' := by
  induction ls with
  | nil => exact Nat.zero_le _
  | cons l ls ih =>
      rw [unlines_cons, List.count_append, List.count_cons_self, List.length_cons]
      omega

/-- Lines are as many as their line feeds just if none of them holds one of its own. -/
theorem count_unlines_eq_length_iff {ls : List Text} :
    (unlines ls).count '\n' = ls.length ↔ ∀ l ∈ ls, '\n' ∉ l := by
  induction ls with
  | nil => simp
  | cons l ls ih =>
      have least := length_le_count_unlines ls
      rw [List.forall_mem_cons, ← ih, ← List.count_eq_zero, unlines_cons, List.count_append,
        List.count_cons_self, List.length_cons]
      omega

theorem newline_not_mem_of_mem_lines {t line : Text} (h : line ∈ lines t) : '\n' ∉ line := by
  induction t using lineInduction with
  | last l free =>
      rw [lines_of_not_mem free, List.mem_singleton] at h
      exact h ▸ free
  | step l t free ih =>
      rw [lines_append_newline, lines_of_not_mem free, List.singleton_append] at h
      rcases List.mem_cons.1 h with rfl | later
      · exact free
      · exact ih later

theorem infix_of_mem_lines {t line : Text} (h : line ∈ lines t) : line <:+: t := by
  induction t using lineInduction with
  | last l free =>
      rw [lines_of_not_mem free, List.mem_singleton] at h
      exact h ▸ List.infix_rfl
  | step l t free ih =>
      rw [lines_append_newline, lines_of_not_mem free, List.singleton_append] at h
      rcases List.mem_cons.1 h with rfl | later
      · exact (List.prefix_append _ _).isInfix
      · exact (ih later).trans ⟨l ++ ['\n'], [], by simp⟩

end PromptDoc.Text
