/-
# PromptDoc.Proofs.Glob.Outline — patterns that are all directories

The tokens of a pattern are gathered in its outermost group. `Reader.outline` is what of
them can no longer change while the rest is read: how many there are, one more if a
group or a class is open, and which of them stand for directories at the beginning. A
step puts other tokens on the outline (`Grows`), except where it reads `**` as
directories, which at the top can only be `**` at the end or `**/`.

So the only patterns that are directories at the beginning and nothing else are `**/`
several times over, and the same with `**` at the end (`ofText_eq_leading_iff`), and
elsewhere directories at the beginning stand at the beginning
(`eq_leading_of_getLast?`).
-/
import PromptDoc.Proofs.Glob.Reading

namespace PromptDoc

namespace Glob

set_option autoImplicit false

def Token.isLeading : Token → Bool
  | .leading => true
  | _ => false

theorem Token.isLeading_iff {t : Token} : t.isLeading = true ↔ t = .leading := by
  cases t <;> simp [isLeading]

/-- `**/` several times over. -/
def doubleStars (n : Nat) : Text := (List.replicate n ['*', '*', '/']).flatten

theorem doubleStars_succ (n : Nat) : doubleStars (n + 1) = '*' :: '*' :: '/' :: doubleStars n := rfl

theorem length_doubleStars (n : Nat) : (doubleStars n).length = 3 * n := by
  simp [doubleStars, Nat.mul_comm]

namespace Reader

/-- What can no longer change of the tokens of the pattern, the last one first. -/
def outline (r : Reader) : List Bool :=
  match r.outer.getLast?, r.openClass with
  | some group, _ => false :: group.tokens.map Token.isLeading
  | none, some _ => false :: r.inner.tokens.map Token.isLeading
  | none, none => r.inner.tokens.map Token.isLeading

section Outline

variable {r r' : Reader}

@[simp] theorem outline_after (r : Reader) (c : Char) : (r.after c).outline = r.outline := rfl

theorem outline_of_atTop (top : r.AtTop) : r.outline = r.inner.tokens.map Token.isLeading := by
  simp [outline, top.outer, top.openClass]

/-- Inside a group only what stands around it counts. -/
theorem outline_of_outer (nested : r.outer ≠ []) (same : r'.outer.getLast? = r.outer.getLast?) :
    r'.outline = r.outline := by
  rw [outline, outline, same, List.getLast?_eq_some_getLast nested]

/-- If the tokens so far are all there will be, nothing is open. -/
theorem atTop_of_outline (lone : r.outline = [] ∨ r.outline = [true]) : r.AtTop := by
  rw [outline] at lone
  split at lone
  · simp at lone
  · simp at lone
  · rename_i outer openClass
    exact ⟨List.getLast?_eq_none_iff.1 outer, openClass⟩

end Outline

/-! ## Steps -/

@[simp] theorem outer_twoStars (r : Reader) (cs : Text) : (r.twoStars cs).1.outer = r.outer := by
  unfold twoStars
  split
  · split <;> rfl
  · split
    · split
      · simp [after]
      · simp [after]
      · split
        · simp [after]
        · rfl
    · rfl

@[simp] theorem outer_openBracket (r : Reader) (cs : Text) :
    (r.openBracket cs).1.outer = r.outer := by
  unfold openBracket
  split <;> rfl

theorem outer_of_classNext {r r' : Reader} {k : OpenClass} {c : Char}
    (step : r.classNext k c = .ok r') : r'.outer = r.outer := by
  unfold classNext at step
  split at step
  · cases step
    rfl
  · cases pushed : k.push c with
    | error e => simp [pushed, Except.map] at step
    | ok k' =>
        simp only [pushed, Except.map, Except.ok.injEq] at step
        rw [← step]

/-- Two stars at the end of a text, or with a slash behind them: what is left of the text. -/
def Directories (c : Char) (cs rest : Text) : Prop :=
  c = '*' ∧ (cs = ['*'] ∧ rest = [] ∨ cs = '*' :: '/' :: rest)

/-- What a step makes of the outline. -/
inductive Grows (r r' : Reader) (c : Char) (cs rest : Text) : Prop
  /-- Inside a group or a class nothing changes outside. -/
  | inside (open_ : ¬ r.AtTop) (same : r'.outline = r.outline)
  /-- Other tokens than directories at the beginning are put on top. -/
  | more (n : Nat) (put : r'.outline = List.replicate (n + 1) false ++ r.outline)
  /-- Two stars are read as directories. -/
  | directories (stars : Directories c cs rest)
      (same : r'.outline = r.outline ∨ r.outline = [] ∧ r'.outline = [true])

section Next

variable {r r' : Reader} {c : Char} {cs rest : Text}

theorem outline_of_plain (nested : r.outer ≠ []) (closed : r.openClass = none)
    (step : r.plain c = .ok r') : r'.outline = r.outline := by
  unfold plain at step
  split at step
  · cases step
    exact outline_of_outer nested rfl
  · cases step
    refine outline_of_outer nested ?_
    rw [openGroup, List.getLast?_cons_of_ne_nil nested]
  · unfold closeGroup at step
    split at step
    · cases step
    · rename_i group outer whole
      cases step
      cases outer with
      | nil => simp [outline, push, whole, closed, Token.isLeading]
      | cons g gs => exact outline_of_outer nested (by simp [push, whole])
  · cases step
    refine outline_of_outer nested ?_
    unfold nextBranch
    split <;> rfl
  · cases step
    exact outline_of_outer nested rfl

/-- Inside a group a step changes nothing outside. -/
theorem outline_of_next_nested (nested : r.outer ≠ []) (step : r.next c cs = .ok (r', rest)) :
    r'.outline = r.outline := by
  unfold next at step
  split at step
  · obtain ⟨⟨r'', taken, rfl⟩, rfl⟩ := map_pair_eq_ok_iff.1 step
    exact outline_of_outer nested (by rw [outer_of_classNext taken])
  · rename_i closed
    split at step
    · have same := outer_openBracket r cs
      rw [Except.ok.inj step] at same
      exact outline_of_outer nested (by rw [same])
    · split at step
      · split at step
        · rename_i cs
          have same := outer_twoStars r cs
          rw [Except.ok.inj step] at same
          exact outline_of_outer nested (by rw [same])
        · cases step
          exact outline_of_outer nested rfl
      · obtain ⟨⟨r'', taken, rfl⟩, rfl⟩ := map_pair_eq_ok_iff.1 step
        have same : r''.outline = r.outline := outline_of_plain nested closed taken
        exact same

/-- A class is one token, before it is closed and after. -/
theorem outline_of_classNext {k : OpenClass} (outer : r.outer = []) (open_ : r.openClass = some k)
    (step : r.classNext k c = .ok r') : r'.outline = r.outline := by
  have before : r.outline = false :: r.inner.tokens.map Token.isLeading := by
    simp [outline, outer, open_]
  unfold classNext at step
  split at step
  · cases step
    rw [before]
    simp [outline, push, after, outer, OpenClass.token, Token.isLeading]
  · cases pushed : k.push c with
    | error e => simp [pushed, Except.map] at step
    | ok k' =>
        simp only [pushed, Except.map, Except.ok.injEq] at step
        rw [before, ← step]
        simp [outline, outer]

/-- A token that is put on top stands for no directories at the beginning. -/
theorem grows_push (top : r.AtTop) {t : Token} (other : t.isLeading = false) (b : Char) :
    Grows r ((r.push t).after b) c cs rest :=
  .more 0 (by simp [outline, push, after, top.outer, top.openClass, other])

theorem grows_manyTwice (top : r.AtTop) : Grows r r.manyTwice c cs rest :=
  .more 1 (by simp [outline, manyTwice, push, after, top.outer, top.openClass, Token.isLeading,
    List.replicate])

theorem outline_replaceSlash (top : r.AtTop) {t : Token} (other : t.isLeading = false) :
    (r.replaceSlash t).outline = r.outline := by
  rw [outline_of_atTop top, outline_of_atTop ⟨by simp [top.outer], by simp [top.openClass]⟩]
  unfold replaceSlash
  split
  · rfl
  · rfl
  · rename_i u us several shape
    have same : u.isLeading = false := by
      rw [Bool.eq_false_iff]
      intro leading
      exact several (Token.isLeading_iff.1 leading)
    rw [shape, List.map_cons, List.map_cons, other, same]

theorem grows_twoStars (top : r.AtTop) {cs : Text} (step : r.twoStars cs = (r', rest)) :
    Grows r r' '*' ('*' :: cs) rest := by
  unfold twoStars at step
  split at step
  · rename_i empty
    have none_ : r.outline = [] := by simp [outline_of_atTop top, empty]
    have lone (b : Char) : ((r.push .leading).after b).outline = [true] := by
      simp [outline, push, after, top.outer, top.openClass, empty, Token.isLeading]
    split at step
    · cases step
      exact .directories ⟨rfl, Or.inl ⟨rfl, rfl⟩⟩ (Or.inr ⟨none_, lone _⟩)
    · cases step
      exact .directories ⟨rfl, Or.inr rfl⟩ (Or.inr ⟨none_, lone _⟩)
    · cases step
      exact grows_manyTwice top
  · split at step
    · split at step
      · cases step
        exact .directories ⟨rfl, Or.inl ⟨rfl, rfl⟩⟩ (Or.inl (outline_replaceSlash top rfl))
      · cases step
        exact .directories ⟨rfl, Or.inr rfl⟩ (Or.inl (outline_replaceSlash top rfl))
      · rw [if_neg (by simp [top.outer])] at step
        cases step
        exact grows_manyTwice top
    · cases step
      exact grows_manyTwice top

theorem grows_openBracket (top : r.AtTop) (cs' : Text) : Grows r (r.openBracket cs').1 c cs rest := by
  refine .more 0 ?_
  unfold openBracket
  split <;> simp [outline, top.outer, top.openClass]

theorem grows_of_plain (top : r.AtTop) (step : r.plain c = .ok r') (b : Char) :
    Grows r (r'.after b) c cs rest := by
  unfold plain at step
  split at step
  · cases step
    exact grows_push top rfl b
  · cases step
    exact .more 0 (by simp [outline, openGroup, after, top.outer, top.openClass])
  · simp [closeGroup, top.outer] at step
  · cases step
    rw [nextBranch, if_pos (by simp [top.outer])]
    exact grows_push top rfl b
  · cases step
    exact grows_push top rfl b

/-- What a step makes of the outline, at the top and elsewhere. -/
theorem grows_of_next (step : r.next c cs = .ok (r', rest)) : Grows r r' c cs rest := by
  by_cases nested : r.outer = []
  · unfold next at step
    split at step
    · rename_i k open_
      obtain ⟨⟨r'', taken, rfl⟩, rfl⟩ := map_pair_eq_ok_iff.1 step
      refine .inside (fun top => ?_) (outline_of_classNext nested open_ taken)
      rw [top.openClass] at open_
      cases open_
    · rename_i closed
      have top : r.AtTop := ⟨nested, closed⟩
      split at step
      · have opened : Grows r (r.openBracket cs).1 c cs rest := grows_openBracket top cs
        rw [Except.ok.inj step] at opened
        exact opened
      · split at step
        · rename_i star
          subst star
          split at step
          · exact grows_twoStars top (Except.ok.inj step)
          · cases step
            exact grows_push top rfl _
        · obtain ⟨⟨r'', taken, rfl⟩, rfl⟩ := map_pair_eq_ok_iff.1 step
          exact grows_of_plain top taken c
  · exact .inside (fun top => nested top.outer) (outline_of_next_nested nested step)

/-- A step takes nothing away. -/
theorem Grows.suffix (grows : Grows r r' c cs rest) : r.outline <:+ r'.outline := by
  cases grows with
  | inside open_ same => exact same ▸ List.suffix_rfl
  | more n put => exact ⟨_, put.symm⟩
  | directories stars same =>
      rcases same with same | ⟨none_, -⟩
      · exact same ▸ List.suffix_rfl
      · rw [none_]
        exact List.nil_suffix

end Next

/-! ## Whole patterns -/

section Whole

variable {r : Reader} {t : Text} {ts : List Token}

/-- Directories at the beginning of the tokens of the pattern stand at the beginning. -/
def LeadingFirst (bs : List Bool) : Prop :=
  ∃ n, bs = List.replicate n false ∨ bs = List.replicate n false ++ [true]

theorem Grows.leadingFirst {r' : Reader} {c : Char} {cs rest : Text}
    (grows : Grows r r' c cs rest) (first : LeadingFirst r.outline) : LeadingFirst r'.outline := by
  cases grows with
  | inside open_ same => rwa [same]
  | more n put =>
      obtain ⟨m, shape⟩ := first
      refine ⟨n + 1 + m, shape.imp (fun shape => ?_) fun shape => ?_⟩
      · rw [put, shape, List.replicate_append_replicate]
      · rw [put, shape, ← List.append_assoc, List.replicate_append_replicate]
  | directories stars same =>
      rcases same with same | ⟨-, lone⟩
      · rwa [same]
      · exact ⟨0, Or.inr lone⟩

/-- The outline so far is a part of the tokens that are read in the end. -/
theorem outline_suffix (read : r.read t = .ok ts) :
    r.outline <:+ ts.reverse.map Token.isLeading := by
  refine readInduction (motive := fun r _ => r.outline <:+ ts.reverse.map Token.isLeading)
    ?_ ?_ read
  · intro r top tokens
    have same : r.outline = ts.reverse.map Token.isLeading := by
      rw [outline_of_atTop top, ← tokens, List.reverse_reverse]
    exact same ▸ List.suffix_rfl
  · exact fun r r' c cs rest step _ later => (grows_of_next step).suffix.trans later

theorem leadingFirst_of_read (read : r.read t = .ok ts) (first : LeadingFirst r.outline) :
    LeadingFirst (ts.reverse.map Token.isLeading) := by
  refine readInduction
    (motive := fun r _ => LeadingFirst r.outline → LeadingFirst (ts.reverse.map Token.isLeading))
    ?_ ?_ read first
  · intro r top tokens first
    rwa [outline_of_atTop top, ← List.reverse_reverse r.inner.tokens, tokens] at first
  · exact fun r r' c cs rest step _ later first => later ((grows_of_next step).leadingFirst first)

/-- A pattern whose only token is directories at the beginning is written as directories only. -/
theorem eq_doubleStars_of_read (read : r.read t = .ok [.leading])
    (lone : r.outline = [] ∨ r.outline = [true]) :
    ∃ n, t = doubleStars n ∨ t = doubleStars n ++ ['*', '*'] := by
  refine readInduction
    (motive := fun r t => r.outline = [] ∨ r.outline = [true] →
      ∃ n, t = doubleStars n ∨ t = doubleStars n ++ ['*', '*']) ?_ ?_ read lone
  · exact fun _ _ _ _ => ⟨0, Or.inl rfl⟩
  · intro r r' c cs rest step more later lone
    cases grows_of_next step with
    | inside open_ same => exact absurd (atTop_of_outline lone) open_
    | more n put =>
        have inside : false ∈ [true] := (outline_suffix more).subset (by simp [put])
        simp at inside
    | directories stars same =>
        obtain ⟨rfl, ⟨rfl, rfl⟩ | rfl⟩ := stars
        · exact ⟨0, Or.inr rfl⟩
        · have lone' : r'.outline = [] ∨ r'.outline = [true] := by
            rcases same with same | ⟨-, one⟩
            · rwa [same]
            · exact Or.inr one
          obtain ⟨n, shape⟩ := later lone'
          refine ⟨n + 1, shape.imp ?_ ?_⟩
          · rintro rfl
            rfl
          · rintro rfl
            rfl

/-- Nothing has been read yet, or directories at the beginning and a slash. -/
structure AtFront (r : Reader) : Prop where
  top : r.AtTop
  lone : r.inner.tokens = [] ∨ r.inner.tokens = [.leading] ∧ r.before = some '/'

/-- Two stars and a slash at the front are directories at the beginning, once or again. -/
theorem AtFront.exists_next (front : r.AtFront) :
    ∃ r' : Reader, r'.AtTop ∧ r'.inner.tokens = [.leading] ∧ r'.before = some '/' ∧
      ∀ t, r.next '*' ('*' :: '/' :: t) = .ok (r', t) := by
  rcases front.lone with empty | ⟨one, slash⟩
  · refine ⟨(r.push .leading).after '/', ⟨front.top.outer, front.top.openClass⟩,
      by simp [push, after, empty], rfl, fun t => ?_⟩
    rw [next_twoStars front.top.openClass, (twoStars_first empty t).2]
  · refine ⟨(r.replaceSlash .between).after '/', ⟨by simp [after, front.top.outer], by
      simp [after, front.top.openClass]⟩, by simp [replaceSlash, after, one], rfl, fun t => ?_⟩
    rw [next_twoStars front.top.openClass, (twoStars_slash (by simp [one]) slash t).2]

theorem AtFront.read_doubleStars (n : Nat) (front : r.AtFront) :
    ∃ r' : Reader, r'.AtFront ∧
      (n ≠ 0 ∨ r.inner.tokens = [.leading] → r'.inner.tokens = [.leading]) ∧
        ∀ t ts, r'.read t = .ok ts → r.read (doubleStars n ++ t) = .ok ts := by
  induction n generalizing r with
  | zero => exact ⟨r, front, fun one => one.resolve_left (not_not.2 rfl), fun t ts read => read⟩
  | succ n ih =>
      obtain ⟨r₁, top, tokens, slash, next⟩ := front.exists_next
      obtain ⟨r₂, front₂, lone, more⟩ := ih (r := r₁) ⟨top, Or.inr ⟨tokens, slash⟩⟩
      refine ⟨r₂, front₂, fun _ => lone (Or.inr tokens), fun t ts read => ?_⟩
      rw [doubleStars_succ]
      exact read_cons_eq_ok_iff.2 ⟨_, _, next _, more t ts read⟩

/-- Directories with two stars behind them are read as directories at the beginning. -/
theorem AtFront.read_twoStars (front : r.AtFront) : r.read ['*', '*'] = .ok [.leading] := by
  refine read_cons_eq_ok_iff.2 ?_
  rw [next_twoStars front.top.openClass]
  rcases front.lone with empty | ⟨one, slash⟩
  · rw [(twoStars_first empty []).1]
    exact ⟨_, _, rfl, read_nil_eq_ok_iff.2 ⟨⟨front.top.outer, front.top.openClass⟩, by
      simp [push, after, empty]⟩⟩
  · rw [(twoStars_slash (by simp [one]) slash []).1]
    exact ⟨_, _, rfl, read_nil_eq_ok_iff.2 ⟨⟨by simp [after, front.top.outer], by
      simp [after, front.top.openClass]⟩, by simp [replaceSlash, after, one]⟩⟩

end Whole

end Reader

open Reader

/-! ## Globs -/

theorem ofText_eq_ok_iff {t : Text} {ts : List Token} :
    ofText t = .ok ⟨ts⟩ ↔ ({} : Reader).read t = .ok ts := by
  rw [ofText]
  cases ({} : Reader).read t with
  | error e => simp [Except.map]
  | ok us => simp [Except.map]

theorem atFront_initial : ({} : Reader).AtFront := ⟨⟨rfl, rfl⟩, Or.inl rfl⟩

/-- Directories at the beginning that end a pattern are all of it. -/
theorem eq_nil_of_ofText {t : Text} {ts : List Token} (read : ofText t = .ok ⟨ts ++ [.leading]⟩) :
    ts = [] := by
  obtain ⟨n, first⟩ := leadingFirst_of_read (ofText_eq_ok_iff.1 read) ⟨0, Or.inl rfl⟩
  rw [List.reverse_append, List.map_append] at first
  cases n with
  | zero => simpa [Token.isLeading] using first
  | succ n => simp [Token.isLeading, List.replicate_succ] at first

/-- A pattern is directories at the beginning and nothing else if it is written as `**/` several
times over, with two stars at the end or without. -/
theorem eq_doubleStars_of_ofText {t : Text} (read : ofText t = .ok ⟨[.leading]⟩) :
    ∃ n, t = doubleStars n ∨ t = doubleStars n ++ ['*', '*'] :=
  eq_doubleStars_of_read (ofText_eq_ok_iff.1 read) (Or.inl rfl)

theorem ofText_doubleStars (n : Nat) : ofText (doubleStars n ++ ['*', '*']) = .ok ⟨[.leading]⟩ := by
  obtain ⟨r, front, -, more⟩ := atFront_initial.read_doubleStars n
  exact ofText_eq_ok_iff.2 (more _ _ front.read_twoStars)

/-- Without the two stars at the end, `/**` behind the pattern is one token more. -/
theorem ofText_doubleStars_succ (n : Nat) :
    ofText (doubleStars (n + 1)) = .ok ⟨[.leading]⟩ ∧
      ofText (doubleStars (n + 1) ++ contents) = .ok ⟨[.leading, .trailing]⟩ := by
  obtain ⟨r, front, lone, more⟩ := atFront_initial.read_doubleStars (n + 1)
  have tokens := lone (Or.inl (Nat.succ_ne_zero n))
  constructor
  · have read := more [] [.leading] (read_nil_eq_ok_iff.2 ⟨front.top, by simp [tokens]⟩)
    rw [List.append_nil] at read
    exact ofText_eq_ok_iff.2 read
  · refine ofText_eq_ok_iff.2 (more _ _ ?_)
    rw [read_contents front.top, tokens]
    rfl

theorem doubleStars_concat (n : Nat) :
    doubleStars n ++ ['*', '*'] ++ contents = doubleStars (n + 1) ++ ['*', '*'] := by
  rw [doubleStars, doubleStars, List.replicate_succ', List.flatten_concat]
  simp [contents]

/-- **A pattern with `/**` behind it.**  It is read as the pattern and the contents of a directory, or
as the pattern alone if that ends in the contents of a directory.  The pattern `**/`, and several
of them, are left out; `**` and `**/**` mean the same with `/**` behind them. -/
theorem ofText_append_contents {t : Text} {ts : List Token} (read : ofText t = .ok ⟨ts⟩)
    (other : ∀ n, t ≠ doubleStars n) :
    (ts = [.leading] ∧ ofText (t ++ contents) = .ok ⟨[.leading]⟩) ∨
      ∃ us, (ts = us ∨ ts = us ++ [.trailing]) ∧ ts ≠ [.leading] ∧
        ofText (t ++ contents) = .ok ⟨us ++ [.trailing]⟩ := by
  by_cases lone : ts = [.leading]
  · subst lone
    obtain ⟨n, rfl | rfl⟩ := eq_doubleStars_of_ofText read
    · exact absurd rfl (other n)
    · left
      exact ⟨rfl, by rw [doubleStars_concat, ofText_doubleStars]⟩
  · right
    obtain ⟨ts', read', adds⟩ := read_append_contents (ofText_eq_ok_iff.1 read)
    rcases adds with rfl | ⟨rfl, ⟨us, rfl⟩ | ⟨us, rfl⟩⟩
    · exact ⟨ts, Or.inl rfl, lone, ofText_eq_ok_iff.2 read'⟩
    · exact ⟨us, Or.inr rfl, lone, ofText_eq_ok_iff.2 read'⟩
    · rw [eq_nil_of_ofText read] at lone
      exact absurd rfl lone

end Glob

end PromptDoc
