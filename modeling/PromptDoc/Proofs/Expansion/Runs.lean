/-
# PromptDoc.Proofs.Expansion.Runs — line feeds run by run

A text falls into its runs of line feeds and the stretches between them (`Text.CutsInto`).
Neighbours are of different kinds, so no run can be made longer, and there is one such cut of a
text: the one between every line feed and other character that stand side by side
(`Text.cutsInto_iff`, `Text.existsUnique_cutsInto`).

A seam of the cut has a line feed on one side only, so `Format.collapse` shortens the runs on
their own (`collapse_flatMap_text`). Looking for three line feeds from the front on and replacing
the whole run that they begin comes to the same text (`replaceLongRuns_eq`). `collapse_runwise`
is the law of shortening that these make up.
-/
import Mathlib.Data.List.SplitBy
import Mathlib.Data.Set.List
import PromptDoc.Proofs.Expansion.Collapse

namespace PromptDoc

set_option autoImplicit false

namespace Text

/-! ## Runs and stretches -/

/-- Line feeds in a row, or a stretch of other characters. -/
inductive Run
  | feeds (length : Nat) (nonempty : 0 < length)
  | stretch (content : Text) (nonempty : content ≠ []) (free : '\n' ∉ content)

namespace Run

def text : Run → Text
  | feeds length _ => List.replicate length '\n'
  | stretch content _ _ => content

def isFeeds : Run → Bool
  | feeds .. => true
  | stretch .. => false

/-- What is left of a run: two line feeds of those that are more, and a stretch as it is. -/
def shortened : Run → Text
  | feeds length _ => List.replicate (min length 2) '\n'
  | stretch content _ _ => content

theorem text_ne_nil (run : Run) : run.text ≠ [] := by
  cases run with
  | feeds length nonempty => simpa [text] using Nat.ne_of_gt nonempty
  | stretch content nonempty free => exact nonempty

/-- The characters of a run are of its kind. -/
theorem beq_newline {run : Run} {c : Char} (inside : c ∈ run.text) :
    (c == '\n') = run.isFeeds := by
  cases run with
  | feeds length nonempty =>
      have feed : c = '\n' := List.eq_of_mem_replicate inside
      rw [feed, isFeeds]
      rfl
  | stretch content nonempty free =>
      have other : c ≠ '\n' := fun feed => free (feed ▸ inside)
      rw [isFeeds, beq_eq_false_iff_ne]
      exact other

theorem text_injective : Function.Injective text := by
  have apart : ∀ {length : Nat} {content : Text}, 0 < length → '\n' ∉ content →
      List.replicate length '\n' ≠ content := fun nonempty free same =>
    free (same ▸ List.mem_replicate.2 ⟨Nat.ne_of_gt nonempty, rfl⟩)
  intro a b same
  cases a with
  | feeds length nonempty =>
      cases b with
      | feeds length' nonempty' =>
          obtain rfl : length = length' := by simpa [text] using same
          rfl
      | stretch content _ free => exact absurd same (apart nonempty free)
  | stretch content _ free =>
      cases b with
      | feeds length' nonempty' => exact absurd same.symm (apart nonempty' free)
      | stretch content' _ _ =>
          obtain rfl : content = content' := same
          rfl

end Run

/-! ## The cut of a text -/

/-- The maximal runs of a text: joined they are the text, and as neighbours are never of one kind
none of them can be made longer. -/
structure CutsInto (t : Text) (runs : List Run) : Prop where
  joined : runs.flatMap Run.text = t
  maximal : runs.IsChain fun a b => a.isFeeds ≠ b.isFeeds

/-- Whether both or none of two characters are line feeds. -/
def alike (a b : Char) : Bool := (a == '\n') == (b == '\n')

theorem alike_eq_false_iff {a b : Run} {c d : Char} (left : c ∈ a.text) (right : d ∈ b.text) :
    alike c d = false ↔ a.isFeeds ≠ b.isFeeds := by
  rw [alike, Run.beq_newline left, Run.beq_newline right, beq_eq_false_iff_ne]

theorem Run.isChain_text (run : Run) : run.text.IsChain fun a b => alike a b := by
  refine (List.pairwise_of_forall_mem_list fun a left b right => ?_).isChain
  rw [alike, beq_newline left, beq_newline right, beq_self_eq_true]

/-- Characters that are alike one after the other are a run. -/
theorem exists_run {t : Text} (nonempty : t ≠ []) (even : t.IsChain fun a b => alike a b) :
    ∃ run : Run, run.text = t := by
  obtain ⟨c, cs, rfl⟩ := List.exists_cons_of_ne_nil nonempty
  have kinds : ((c :: cs).map (· == '\n')).IsChain (· = ·) :=
    (List.isChain_map _).2 (even.imp fun a b same => eq_of_beq same)
  have all : ∀ x ∈ c :: cs, (x == '\n') = (c == '\n') := fun x inside =>
    List.eq_of_mem_replicate
      (List.isChain_eq_iff_eq_replicate.1 kinds _ rfl ▸ List.mem_map_of_mem inside)
  by_cases feed : c = '\n'
  · refine ⟨.feeds (c :: cs).length (Nat.succ_pos _), Eq.symm (List.eq_replicate_of_mem ?_)⟩
    intro x inside
    simpa [feed] using all x inside
  · refine ⟨.stretch (c :: cs) nonempty fun inside => ?_, rfl⟩
    simpa [feed] using all _ inside

/-- A text is cut where a line feed and another character stand side by side. -/
theorem cutsInto_iff {t : Text} {runs : List Run} :
    CutsInto t runs ↔ t.splitBy alike = runs.map Run.text := by
  have seams : ((runs.map Run.text).IsChain fun a b =>
      ∃ ha hb, alike (a.getLast ha) (b.head hb) = false) ↔
      runs.IsChain fun a b => a.isFeeds ≠ b.isFeeds := by
    rw [List.isChain_map]
    refine List.IsChain.iff fun {a b} => ⟨?_, fun differ => ?_⟩
    · rintro ⟨ha, hb, differ⟩
      exact (alike_eq_false_iff (List.getLast_mem ha) (List.head_mem hb)).1 differ
    · refine ⟨a.text_ne_nil, b.text_ne_nil, ?_⟩
      exact (alike_eq_false_iff (List.getLast_mem _) (List.head_mem _)).2 differ
  rw [List.splitBy_eq_iff, seams]
  constructor
  · rintro ⟨joined, maximal⟩
    refine ⟨joined.symm, ?_, ?_, maximal⟩
    · simp [Run.text_ne_nil]
    · intro piece inside
      obtain ⟨run, -, rfl⟩ := List.mem_map.1 inside
      exact run.isChain_text
  · rintro ⟨joined, -, -, maximal⟩
    exact ⟨joined.symm, maximal⟩

/-- **A text has one cut into maximal runs.** -/
theorem existsUnique_cutsInto (t : Text) : ∃! runs, CutsInto t runs := by
  have cut : t.splitBy alike ∈ Set.range (List.map Run.text) := by
    rw [Set.range_list_map]
    exact fun piece inside =>
      exists_run (List.ne_nil_of_mem_splitBy inside) (List.isChain_of_mem_splitBy inside)
  obtain ⟨runs, same⟩ := cut
  refine ⟨runs, cutsInto_iff.2 same.symm, fun other cut' => ?_⟩
  exact Run.text_injective.list_map ((cutsInto_iff.1 cut').symm.trans same.symm)

end Text

namespace Format

open Text

/-! ## Shortening run by run -/

/-- Of `n` line feeds those are written that fit behind the `run` before them. -/
theorem collapseAfter_replicate (run n : Nat) :
    collapseAfter run (List.replicate n '\n') = List.replicate (min n (2 - run)) '\n' := by
  induction n generalizing run with
  | zero => simp [collapseAfter]
  | succ n ih =>
      rw [List.replicate_succ, collapseAfter, if_pos rfl]
      by_cases short : run < 2
      · rw [if_pos short, ih, ← List.replicate_succ]
        congr 1
        omega
      · rw [if_neg short, ih]
        congr 1
        omega

theorem collapse_replicate (n : Nat) :
    collapse (List.replicate n '\n') = List.replicate (min n 2) '\n' :=
  collapseAfter_replicate 0 n

/-- A run on its own. -/
theorem collapse_text (run : Run) : collapse run.text = run.shortened := by
  cases run with
  | feeds length _ => exact collapse_replicate length
  | stretch content _ free =>
      exact collapse_eq_self_iff.2 fun inside => free (inside.subset (by decide))

/-- No run crosses a seam of the cut. -/
theorem collapse_flatMap_text {runs : List Run}
    (maximal : runs.IsChain fun a b => a.isFeeds ≠ b.isFeeds) :
    collapse (runs.flatMap Run.text) = runs.flatMap Run.shortened := by
  induction runs with
  | nil => rfl
  | cons run rest ih =>
      -- line feeds on both sides of the seam would make neighbours of two runs of line feeds
      have seam : run.text.getLast? ≠ some '\n' ∨
          (rest.flatMap Run.text).head? ≠ some '\n' := by
        cases rest with
        | nil => exact Or.inr (by simp)
        | cons next rest =>
            rw [List.flatMap_cons, List.head?_append_of_ne_nil _ next.text_ne_nil]
            by_contra crossed
            obtain ⟨last, first⟩ := not_or.1 crossed
            have left := Run.beq_newline (List.mem_of_getLast? (not_not.1 last))
            have right := Run.beq_newline (List.mem_of_head? (not_not.1 first))
            exact (List.isChain_cons_cons.1 maximal).1 (left.symm.trans right)
      rw [List.flatMap_cons, collapse_append seam, collapse_text, ih maximal.tail,
        List.flatMap_cons]

/-! ## Search and replace -/

theorem length_behind_lt {t before after : Text}
    (cut : cutAt? "\n\n\n".toList t = some (before, after)) :
    (after.dropWhile (· = '\n')).length < t.length := by
  have shorter := length_of_cutAt? cut
  have three : "\n\n\n".toList.length = 3 := rfl
  have rest := List.length_dropWhile_le (· = '\n') after
  omega

/-- Looks for three line feeds from the front on, puts two in the place of the whole run that they
begin, and goes on behind it. -/
def replaceLongRuns (t : Text) : Text :=
  match cut : cutAt? "\n\n\n".toList t with
  | none => t
  | some (before, after) =>
    have := length_behind_lt cut
    before ++ "\n\n".toList ++ replaceLongRuns (after.dropWhile (· = '\n'))
termination_by t.length

/-- The text in front of the first three line feeds in a row has none of them, not even one at its
end. -/
theorem settled_of_cutAt? {t before after : Text}
    (cut : cutAt? "\n\n\n".toList t = some (before, after)) :
    before.getLast? ≠ some '\n' ∧ collapse before = before := by
  -- three line feeds would begin further to the front than where the text is cut
  have first := first_of_cutAt? cut
  constructor
  · intro last
    obtain ⟨front, rfl⟩ := List.getLast?_eq_some_iff.1 last
    exact first ['\n'] (List.suffix_append _ _) (List.cons_ne_nil _ _) ⟨'\n' :: after, rfl⟩
  · refine collapse_eq_self_iff.2 ?_
    rintro ⟨front, back, rfl⟩
    refine first ("\n\n\n".toList ++ back) ?_ (by simp) ?_
    · rw [List.append_assoc]
      exact List.suffix_append _ _
    · rw [List.append_assoc, List.append_assoc]
      exact List.prefix_append _ _

/-- A text is the line feeds that it begins with and the rest. -/
theorem exists_feeds (t : Text) :
    ∃ n, t = List.replicate n '\n' ++ t.dropWhile (· = '\n') := by
  have feeds : t.takeWhile (· = '\n') =
      List.replicate (t.takeWhile (· = '\n')).length '\n' :=
    List.eq_replicate_of_mem fun c inside => by simpa using List.mem_takeWhile_imp inside
  refine ⟨(t.takeWhile (· = '\n')).length, ?_⟩
  rw [← feeds, List.takeWhile_append_dropWhile]

/-- Three line feeds come to two, with all that follow them in a row. -/
theorem collapse_three_append (t : Text) :
    collapse ("\n\n\n".toList ++ t) = "\n\n".toList ++ collapse (t.dropWhile (· = '\n')) := by
  obtain ⟨n, split⟩ := exists_feeds t
  have head : (t.dropWhile (· = '\n')).head? ≠ some '\n' := by
    have other := List.head?_dropWhile_not (· = '\n') t
    intro first
    simp [first] at other
  generalize t.dropWhile (· = '\n') = rest at split head ⊢
  calc collapse ("\n\n\n".toList ++ t)
      = collapse (List.replicate (3 + n) '\n' ++ rest) := by
        rw [split, List.replicate_add, List.append_assoc]
        rfl
    _ = collapse (List.replicate (3 + n) '\n') ++ collapse rest :=
        collapse_append (Or.inr head)
    _ = "\n\n".toList ++ collapse rest := by
        rw [collapse_replicate, Nat.min_eq_right (by omega)]
        rfl

/-- **Search and replace shortens the runs.** -/
theorem replaceLongRuns_eq (t : Text) : replaceLongRuns t = collapse t := by
  fun_induction replaceLongRuns t with
  | case1 t absent =>
      refine (collapse_eq_self_iff.2 fun inside => ?_).symm
      have found := cutAt?_isSome_iff.2 inside
      rw [absent] at found
      cases found
  | case2 t before after cut _ ih =>
      obtain ⟨last, kept⟩ := settled_of_cutAt? cut
      rw [← append_of_cutAt? cut, List.append_assoc, List.append_assoc,
        collapse_append (Or.inl last), kept, collapse_three_append, ih]

/-! ## The law of shortening -/

/-- **A text is shortened run by run.**  It has one cut into its maximal runs of line feeds and the
stretches between them; a run of `n` line feeds becomes `min n 2` of them and a stretch stays as it
is, which is also what looking for long runs and replacing them comes to.  So shortening a second
time changes nothing, a text is left alone just if it has no three line feeds in a row, and two
texts of which the first does not end or the second does not begin with a line feed are shortened
on their own. -/
theorem collapse_runwise (t : Text) :
    (∃ runs, CutsInto t runs ∧ (∀ other, CutsInto t other → other = runs) ∧
      collapse t = runs.flatMap Run.shortened) ∧
    replaceLongRuns t = collapse t ∧
    collapse (collapse t) = collapse t ∧
    (collapse t = t ↔ ¬ "\n\n\n".toList <:+: t) ∧
    ∀ behind : Text, t.getLast? ≠ some '\n' ∨ behind.head? ≠ some '\n' →
      collapse (t ++ behind) = collapse t ++ collapse behind := by
  obtain ⟨runs, cut, only⟩ := existsUnique_cutsInto t
  have shortened : collapse t = runs.flatMap Run.shortened := by
    rw [← collapse_flatMap_text cut.maximal, cut.joined]
  exact ⟨⟨runs, cut, only, shortened⟩, replaceLongRuns_eq t, collapse_collapse t,
    collapse_eq_self_iff, fun behind => collapse_append⟩

/-- Long and short runs, at both ends and on both sides of a carriage return. -/
def ragged : Text := "\n\n\nx\n\n\r\n\n\n\n".toList

def raggedRuns : List Run :=
  [.feeds 3 (by decide), .stretch ['x'] (by decide) (by decide), .feeds 2 (by decide),
    .stretch ['\r'] (by decide) (by decide), .feeds 4 (by decide)]

theorem collapse_runwise_ragged :
    CutsInto ragged raggedRuns ∧ " y\n\n\n".toList.head? ≠ some '\n' ∧
    collapse ragged = "\n\nx\n\n\r\n\n".toList ∧
    collapse (ragged ++ " y\n\n\n".toList) = collapse ragged ++ collapse " y\n\n\n".toList := by
  have cut : CutsInto ragged raggedRuns := ⟨rfl, by decide⟩
  have head : " y\n\n\n".toList.head? ≠ some '\n' := by decide
  obtain ⟨⟨runs, -, only, shortened⟩, -, -, -, apart⟩ := collapse_runwise ragged
  obtain rfl := only raggedRuns cut
  exact ⟨cut, head, shortened, apart _ (Or.inr head)⟩

end Format

end PromptDoc
