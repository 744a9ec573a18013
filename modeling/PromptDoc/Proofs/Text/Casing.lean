/-
# PromptDoc.Proofs.Text.Casing — lower case is settled, and blind to the case of ASCII letters

Two things make texts in lower case comparable.  What is in lower case stays as it is
(`lowercase_lowercase`): a run of capital letters gives no character that is in a run again
(`isSettled_of_mem_lowerRuns`), and no capital sigma is left that could end a word.  And texts
that differ in the case of ASCII letters only have one lower case (`lowercase_map_toLower`):
such letters have one lower case themselves, and they say the same of a sigma beside them,
since capital and small letters alike are cased.
-/
import Mathlib.Data.List.Infix
import PromptDoc.Text.Lowercase

namespace PromptDoc.Text

set_option autoImplicit false

/-! ## Runs of capital letters -/

namespace CaseData

/-- The code points in a run. -/
def points : Nat × Nat × Nat × Int → List Nat
  | (first, last, step, _) => List.range' first ((last - first) / step + 1) step

/-- Numbers as the bits of one number, which makes it cheap to ask for one of them. -/
def bits (ns : List Nat) : Nat := ns.foldr (fun n b => b ||| 1 <<< n) 0

/-- The code points that are in a run. -/
def capitals : Nat := bits (lowerRuns.flatMap points)

/-- A code point that lower case leaves as it is: it is in no run, and neither one of the capital
letters of ASCII nor the one beyond them whose lower case is two characters. -/
def isSettled (n : Nat) : Bool :=
  !capitals.testBit n && (Nat.blt n 0xD800 || Nat.blt 0xDFFF n && Nat.blt n 0x110000) &&
    (Nat.ble 0x80 n || Nat.ble 0x61 n && Nat.ble n 0x7A) && n != 0x130

theorem mem_points {n first last step : Nat} (shift : Int) (least : first ≤ n) (most : n ≤ last)
    (every : (n - first) % step = 0) : n ∈ points (first, last, step, shift) := by
  refine List.mem_range'.2 ⟨(n - first) / step, ?_, ?_⟩
  · exact Nat.lt_succ_of_le (Nat.div_le_div_right (by omega))
  · rw [Nat.mul_div_cancel' (Nat.dvd_of_mod_eq_zero every)]
    omega

theorem testBit_bits {n : Nat} {ns : List Nat} (inside : n ∈ ns) : (bits ns).testBit n = true := by
  induction ns with
  | nil => cases inside
  | cons m ms ih =>
      show (bits ms ||| 1 <<< m).testBit n = true
      rw [Nat.testBit_or, Nat.one_shiftLeft, Bool.or_eq_true]
      rcases List.mem_cons.1 inside with rfl | later
      · exact Or.inr Nat.testBit_two_pow_self
      · exact Or.inl (ih later)

theorem testBit_capitals {run : Nat × Nat × Nat × Int} {n : Nat} (listed : run ∈ lowerRuns)
    (inside : n ∈ points run) : capitals.testBit n = true :=
  testBit_bits (List.mem_flatMap.2 ⟨run, listed, inside⟩)

/-- **What a run makes of its characters is settled.** -/
theorem isSettled_of_mem_lowerRuns : ∀ run ∈ lowerRuns, ∀ n ∈ points run,
    isSettled (n + run.2.2.2).toNat = true := by
  have all : (lowerRuns.all fun run =>
      (points run).all fun n => isSettled (n + run.2.2.2).toNat) = true := by decide +kernel
  intro run listed n inside
  exact List.all_eq_true.1 (List.all_eq_true.1 all run listed) n inside

end CaseData

/-! ## Lower case again -/

/-- A character that lower case leaves as it is, wherever it stands. -/
def IsLower (c : Char) : Prop := c ≠ 'Σ' ∧ lowerChar c = [c]

instance : DecidablePred IsLower := fun c =>
  inferInstanceAs (Decidable (c ≠ 'Σ' ∧ lowerChar c = [c]))

/-- A character that has a small letter is one of twenty-six. -/
theorem toLower_cases (c : Char) : c.toLower = c ∨ ∃ n < 26, c = Char.ofNat (n + 65) := by
  unfold Char.toLower
  split
  · rename_i capital
    obtain ⟨least, most⟩ := capital
    have least : 65 ≤ c.toNat := least
    have most : c.toNat ≤ 90 := most
    refine Or.inr ⟨c.toNat - 65, by omega, ?_⟩
    rw [Nat.sub_add_cancel least, Char.ofNat_toNat]
  · exact Or.inl rfl

/-- A character is its own lower case, or one that its run makes of it. -/
theorem lowerByRun_cases (c : Char) : lowerByRun c = c ∨
    ∃ run ∈ CaseData.lowerRuns, c.toNat ∈ CaseData.points run ∧
      lowerByRun c = Char.ofNat (c.toNat + run.2.2.2).toNat := by
  simp only [lowerByRun]
  split
  · rename_i first last step shift found
    have held := List.find?_some found
    simp only [Bool.and_eq_true, decide_eq_true_eq, beq_iff_eq] at held
    obtain ⟨⟨least, most⟩, every⟩ := held
    exact Or.inr ⟨_, List.mem_of_find?_eq_some found, CaseData.mem_points shift least most every, rfl⟩
  · exact Or.inl rfl

theorem isLower_of_lowerByRun {c : Char} (large : 0x80 ≤ c.toNat) (other : c.toNat ≠ 0x130)
    (same : lowerByRun c = c) : IsLower c := by
  constructor
  · rintro rfl
    exact absurd same (by decide +kernel)
  · rw [lowerChar, if_neg (by omega), if_neg (by simpa using other), same]

theorem isLower_ofNat {n : Nat} (settled : CaseData.isSettled n = true) : IsLower (Char.ofNat n) := by
  simp only [CaseData.isSettled, Bool.and_eq_true, Bool.or_eq_true, Bool.not_eq_true',
    Nat.blt_eq, Nat.ble_eq, bne_iff_ne] at settled
  obtain ⟨⟨⟨outside, valid⟩, range⟩, other⟩ := settled
  rcases range with large | ⟨least, most⟩
  · have value : (Char.ofNat n).toNat = n := by
      rw [Char.ofNat, dif_pos valid]
      rfl
    rw [← value] at large other outside
    refine isLower_of_lowerByRun large other ((lowerByRun_cases _).resolve_right ?_)
    rintro ⟨run, listed, inside, -⟩
    cases (CaseData.testBit_capitals listed inside).symm.trans outside
  · have small : ∀ k < 26, IsLower (Char.ofNat (k + 97)) := by decide
    have letter := small (n - 97) (by omega)
    rwa [Nat.sub_add_cancel least] at letter

theorem isLower_lowerByRun {c : Char} (large : 0x80 ≤ c.toNat) (other : c.toNat ≠ 0x130) :
    IsLower (lowerByRun c) := by
  rcases lowerByRun_cases c with same | ⟨run, listed, inside, moved⟩
  · exact same.symm ▸ isLower_of_lowerByRun large other same
  · exact moved.symm ▸ isLower_ofNat (CaseData.isSettled_of_mem_lowerRuns run listed _ inside)

theorem isLower_toLower {c : Char} (small : c.toNat < 0x80) : IsLower c.toLower := by
  have letters : ∀ n < 26, IsLower (Char.ofNat (n + 65)).toLower := by decide
  rcases toLower_cases c with same | ⟨n, bound, rfl⟩
  · rw [same]
    refine ⟨?_, by rw [lowerChar, if_pos small, same]⟩
    rintro rfl
    exact absurd small (by decide)
  · exact letters n bound

theorem isLower_of_mem_lowerChar {c d : Char} (inside : d ∈ lowerChar c) : IsLower d := by
  unfold lowerChar at inside
  split at inside
  · rename_i small
    rw [List.mem_singleton.1 inside]
    exact isLower_toLower small
  · split at inside
    · have both : d = 'i' ∨ d = Char.ofNat 0x307 := by simpa using inside
      rcases both with rfl | rfl <;> decide +kernel
    · rename_i large other
      rw [List.mem_singleton.1 inside]
      exact isLower_lowerByRun (by omega) (by simpa using other)

theorem isLower_of_mem_lowercaseAfter {before t : Text} {d : Char}
    (inside : d ∈ lowercaseAfter before t) : IsLower d := by
  induction t generalizing before with
  | nil => cases inside
  | cons c cs ih =>
      rw [lowercaseAfter, List.mem_append] at inside
      rcases inside with here | later
      · split at here
        · have sigma : d = 'ς' ∨ d = 'σ' := by
            rw [List.mem_singleton] at here
            rw [here]
            split <;> simp
          rcases sigma with rfl | rfl <;> decide +kernel
        · exact isLower_of_mem_lowerChar here
      · exact ih later

theorem lowercaseAfter_of_isLower {t : Text} (lower : ∀ c ∈ t, IsLower c) (before : Text) :
    lowercaseAfter before t = t := by
  induction t generalizing before with
  | nil => rfl
  | cons c cs ih =>
      obtain ⟨⟨other, same⟩, later⟩ := List.forall_mem_cons.1 lower
      rw [lowercaseAfter, if_neg (by simpa using other), same, ih later]
      rfl

/-- **What is in lower case stays as it is.** -/
theorem lowercase_lowercase (t : Text) : lowercase (lowercase t) = lowercase t :=
  lowercaseAfter_of_isLower (fun _ => isLower_of_mem_lowercaseAfter) []

/-! ## The case of ASCII letters -/

/-- What is the same of twenty-six letters in both cases is the same of every character. -/
theorem apply_toLower {α : Type} {f : Char → α}
    (same : ∀ n < 26, f (Char.ofNat (n + 65)).toLower = f (Char.ofNat (n + 65))) (c : Char) :
    f c.toLower = f c := by
  rcases toLower_cases c with small | ⟨n, bound, rfl⟩
  · rw [small]
  · exact same n bound

/-- Letters are cased in both cases. -/
theorem cased_toLower (c : Char) : CaseData.cased.has c.toLower = CaseData.cased.has c :=
  apply_toLower (by decide) c

/-- And they are never ignored. -/
theorem caseIgnorable_toLower (c : Char) :
    CaseData.caseIgnorable.has c.toLower = CaseData.caseIgnorable.has c := by
  have apart : ∀ range ∈ CaseData.caseIgnorable,
      range.2 < 65 ∨ 90 < range.1 ∧ range.2 < 97 ∨ 122 < range.1 := by decide +kernel
  have letter : ∀ d : Char, 65 ≤ d.toNat ∧ d.toNat ≤ 90 ∨ 97 ≤ d.toNat ∧ d.toNat ≤ 122 →
      CaseData.caseIgnorable.has d = false := by
    intro d bounds
    refine List.any_eq_false.2 fun range listed => ?_
    have := apart range listed
    simp only [Bool.and_eq_true, decide_eq_true_eq]
    omega
  have values : ∀ n < 26, (Char.ofNat (n + 65)).toNat = n + 65 ∧
      (Char.ofNat (n + 65)).toLower.toNat = n + 97 := by decide
  refine apply_toLower (fun n bound => ?_) c
  obtain ⟨capital, small⟩ := values n bound
  rw [letter _ (by omega), letter _ (by omega)]

theorem lowerChar_toLower (c : Char) : lowerChar c.toLower = lowerChar c :=
  apply_toLower (by decide) c

theorem toLower_beq_sigma (c : Char) : (c.toLower == 'Σ') = (c == 'Σ') :=
  @apply_toLower Bool (· == 'Σ') (by decide) c

theorem startsCased_map_toLower (t : Text) : startsCased (t.map Char.toLower) = startsCased t := by
  induction t with
  | nil => rfl
  | cons c cs ih =>
    by_cases ignored : CaseData.caseIgnorable.has c = true
    · have ignored' := (caseIgnorable_toLower c).trans ignored
      unfold startsCased at ih ⊢
      rw [List.map_cons, List.dropWhile_cons_of_pos ignored, List.dropWhile_cons_of_pos ignored', ih]
    · have ignored' := (caseIgnorable_toLower c).symm ▸ ignored
      unfold startsCased
      rw [List.map_cons, List.dropWhile_cons_of_neg ignored, List.dropWhile_cons_of_neg ignored']
      exact cased_toLower c

theorem lowercaseAfter_map_toLower (before t : Text) :
    lowercaseAfter (before.map Char.toLower) (t.map Char.toLower) = lowercaseAfter before t := by
  induction t generalizing before with
  | nil => rfl
  | cons c cs ih =>
      rw [List.map_cons, lowercaseAfter, lowercaseAfter, toLower_beq_sigma, endsWord,
        startsCased_map_toLower, startsCased_map_toLower, lowerChar_toLower, ← List.map_cons, ih]
      rfl

/-- **The case of ASCII letters makes no difference.** -/
theorem lowercase_map_toLower (t : Text) : lowercase (t.map Char.toLower) = lowercase t :=
  lowercaseAfter_map_toLower [] t

/-- A character that is no letter of ASCII comes of itself only. -/
theorem mem_map_toLower_iff {c : Char} (other : c.isAlpha = false) {t : Text} :
    c ∈ t.map Char.toLower ↔ c ∈ t := by
  have letters : ∀ n < 26, (Char.ofNat (n + 65)).isAlpha = true ∧
      (Char.ofNat (n + 65)).toLower.isAlpha = true := by decide
  constructor
  · intro held
    obtain ⟨d, inside, rfl⟩ := List.mem_map.1 held
    rcases toLower_cases d with same | ⟨n, bound, rfl⟩
    · exact same.symm ▸ inside
    · cases (letters n bound).2.symm.trans other
  · intro inside
    rcases toLower_cases c with same | ⟨n, bound, rfl⟩
    · exact List.mem_map.2 ⟨c, inside, same⟩
    · cases (letters n bound).1.symm.trans other

end PromptDoc.Text
