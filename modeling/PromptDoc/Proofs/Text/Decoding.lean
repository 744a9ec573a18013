/-
# PromptDoc.Proofs.Text.Decoding — what becomes of bytes that are read as a text

Reading takes one unit after another off the front of bytes. What a unit is depends on its
first byte alone, which says what the bytes behind it have to be (`Utf8.demands`): the unit
is the longest start that meets that, and a character if nothing is missing (`Utf8.unit`,
`decodeUnits_cons`). Such a character is the one that the bytes are the form of
(`eq_of_unit`), so a text that is written again is the bytes that it was read from where
they are well-formed, and nowhere else (`encode_decodeLossy_eq_iff`).

A byte that continues no sequence ends the unit before it (`unit_append_cons`). So an ASCII
character stands in the text where its byte stands, and there the bytes are cut as the text
is (`exists_of_decodeLossy`).
-/
import Mathlib.Data.List.Forall2
import Mathlib.Tactic.SplitIfs
import PromptDoc.Proofs.Text.Bytes

namespace PromptDoc.Text

set_option autoImplicit false

namespace Utf8

/-! ## Units -/

/-- What the bytes after the first byte of a sequence have to be; none for a byte that begins no
sequence. -/
def demands (b : UInt8) : Option (List (UInt8 → Bool)) :=
  if b < 0x80 then some []
  else if 0xC2 ≤ b && b ≤ 0xDF then some [isTail]
  else if 0xE0 ≤ b && b ≤ 0xEF then some [isSecond b, isTail]
  else if 0xF0 ≤ b && b ≤ 0xF4 then some [isSecond b, isTail, isTail]
  else none

/-- The longest start that meets demands, and the bytes behind it. -/
def follow : List (UInt8 → Bool) → Bytes → Bytes × Bytes
  | p :: ps, c :: cs => if p c then ((follow ps cs).1.cons c, (follow ps cs).2) else ([], c :: cs)
  | _, cs => ([], cs)

/-- The code point of a sequence. -/
def codePoint (b : UInt8) : Bytes → Nat
  | [c] => b.toNat % 32 * 64 + payload c
  | [c, d] => (b.toNat % 16 * 64 + payload c) * 64 + payload d
  | [c, d, e] => ((b.toNat % 8 * 64 + payload c) * 64 + payload d) * 64 + payload e
  | _ => b.toNat

/-- The unit that begins with a byte, and the bytes behind it. -/
def unit (b : UInt8) (bs : Bytes) : Option Char × Bytes :=
  match demands b with
  | none => (none, bs)
  | some ps =>
    let (tails, rest) := follow ps bs
    (if tails.length = ps.length then some (Char.ofNat (codePoint b tails)) else none, rest)

variable {b c : UInt8} {bs rest : Bytes} {ps : List (UInt8 → Bool)}

/-- Bytes are read unit by unit. -/
theorem decodeUnits_cons (b : UInt8) (bs : Bytes) :
    decodeUnits (b :: bs) = (unit b bs).1 :: decodeUnits (unit b bs).2 := by
  rw [decodeUnits.eq_def]
  unfold unit demands
  simp only []
  by_cases one : b < 0x80
  · simp only [if_pos one]
    cases bs <;> simp [follow, codePoint]
  by_cases two : (decide (0xC2 ≤ b) && decide (b ≤ 0xDF)) = true
  · simp only [if_neg one, if_pos two]
    rcases bs with _ | ⟨c, cs⟩
    · simp [follow, decodeUnits]
    · by_cases fits : isTail c = true <;> cases cs <;> simp [follow, fits, codePoint]
  by_cases three : (decide (0xE0 ≤ b) && decide (b ≤ 0xEF)) = true
  · simp only [if_neg one, if_neg two, if_pos three]
    rcases bs with _ | ⟨c, _ | ⟨d, ds⟩⟩
    · simp [follow, decodeUnits]
    · by_cases fits : isSecond b c = true <;> simp [follow, fits, decodeUnits]
    · by_cases fits : isSecond b c = true <;> by_cases fits' : isTail d = true <;> cases ds <;>
        simp [follow, fits, fits', codePoint]
  by_cases four : (decide (0xF0 ≤ b) && decide (b ≤ 0xF4)) = true
  · simp only [if_neg one, if_neg two, if_neg three, if_pos four]
    rcases bs with _ | ⟨c, _ | ⟨d, _ | ⟨e, es⟩⟩⟩
    · simp [follow, decodeUnits]
    · by_cases fits : isSecond b c = true <;> simp [follow, fits, decodeUnits]
    · by_cases fits : isSecond b c = true <;> by_cases fits' : isTail d = true <;>
        simp [follow, fits, fits', decodeUnits]
    · by_cases fits : isSecond b c = true <;> by_cases fits' : isTail d = true <;>
        by_cases fits'' : isTail e = true <;> cases es <;>
        simp [follow, fits, fits', fits'', codePoint]
  · simp only [if_neg one, if_neg two, if_neg three, if_neg four]

theorem follow_split (ps : List (UInt8 → Bool)) (bs : Bytes) :
    (follow ps bs).1 ++ (follow ps bs).2 = bs := by
  induction ps generalizing bs with
  | nil => rfl
  | cons p ps ih =>
      cases bs with
      | nil => rfl
      | cons c cs =>
          rw [follow]
          split
          · exact congrArg (c :: ·) (ih cs)
          · rfl

theorem length_follow_le (ps : List (UInt8 → Bool)) (bs : Bytes) :
    (follow ps bs).1.length ≤ ps.length := by
  induction ps generalizing bs with
  | nil => exact Nat.le_refl _
  | cons p ps ih =>
      cases bs with
      | nil => exact Nat.zero_le _
      | cons c cs =>
          rw [follow]
          split
          · exact Nat.succ_le_succ (ih cs)
          · exact Nat.zero_le _

/-- A byte that meets no demand ends what is followed. -/
theorem follow_append_cons (fails : ∀ p ∈ ps, p b = false) (bs ys : Bytes) :
    follow ps (bs ++ b :: ys) = ((follow ps bs).1, (follow ps bs).2 ++ b :: ys) := by
  induction ps generalizing bs with
  | nil => rfl
  | cons p ps ih =>
      obtain ⟨here, later⟩ := List.forall_mem_cons.1 fails
      cases bs with
      | nil => exact if_neg (by simp [here])
      | cons c cs =>
          rw [List.cons_append, follow, follow, ih later]
          split <;> rfl

theorem forall₂_follow (all : (follow ps bs).1.length = ps.length) :
    List.Forall₂ (fun p c => p c = true) ps (follow ps bs).1 := by
  induction ps generalizing bs with
  | nil => exact .nil
  | cons p ps ih =>
      cases bs with
      | nil => simp [follow] at all
      | cons c cs =>
          rw [follow] at all ⊢
          split at all
          · rename_i fits
            rw [if_pos fits]
            exact .cons fits (ih (by simpa using all))
          · simp at all

theorem isTail_eq_true_iff : isTail b = true ↔ 0x80 ≤ b.toNat ∧ b.toNat ≤ 0xBF := by
  simp [isTail, UInt8.le_iff_toNat_le]

/-- What can be the second byte of a sequence. -/
theorem isSecond_eq_true_iff : isSecond b c = true ↔
    isTail c = true ∧ (b.toNat = 0xE0 → 0xA0 ≤ c.toNat) ∧ (b.toNat = 0xED → c.toNat ≤ 0x9F) ∧
      (b.toNat = 0xF0 → 0x90 ≤ c.toNat) ∧ (b.toNat = 0xF4 → c.toNat ≤ 0x8F) := by
  simp only [isSecond, beq_iff_eq, ← UInt8.toNat_inj]
  split_ifs <;>
    simp only [isTail_eq_true_iff, Bool.and_eq_true, decide_eq_true_eq, UInt8.le_iff_toNat_le,
      UInt8.reduceToNat] at * <;>
    omega

/-- Every byte behind the first one of a sequence continues it. -/
theorem isTail_of_demands {p : UInt8 → Bool} (demanded : demands b = some ps) (listed : p ∈ ps)
    (meets : p c = true) : isTail c = true := by
  unfold demands at demanded
  split_ifs at demanded <;> cases demanded <;> simp at listed
  · exact listed ▸ meets
  · rcases listed with rfl | rfl
    exacts [(isSecond_eq_true_iff.1 meets).1, meets]
  · rcases listed with rfl | rfl
    exacts [(isSecond_eq_true_iff.1 meets).1, meets]

/-- A byte that continues no sequence ends the unit before it. -/
theorem unit_append_cons (ends : isTail c = false) (b : UInt8) (bs ys : Bytes) :
    unit b (bs ++ c :: ys) = ((unit b bs).1, (unit b bs).2 ++ c :: ys) := by
  unfold unit
  cases demanded : demands b with
  | none => rfl
  | some ps =>
      have fails : ∀ p ∈ ps, p c = false := by
        intro p listed
        by_contra meets
        cases ends.symm.trans (isTail_of_demands demanded listed (by simpa using meets))
      simp only [follow_append_cons fails]

theorem toNat_ofNat {n : Nat} (valid : n.isValidChar) : (Char.ofNat n).toNat = n := by
  rw [Char.ofNat, dif_pos valid]
  rfl

/-- The form of a code point. -/
theorem utf8EncodeChar_ofNat {n : Nat} (valid : n.isValidChar) :
    String.utf8EncodeChar (Char.ofNat n) =
      if n ≤ 0x7F then [UInt8.ofNat n]
      else if n ≤ 0x7FF then [UInt8.ofNat (n / 64 % 0x20 + 0xC0), UInt8.ofNat (n % 0x40 + 0x80)]
      else if n ≤ 0xFFFF then
        [UInt8.ofNat (n / 4096 % 0x10 + 0xE0), UInt8.ofNat (n / 64 % 0x40 + 0x80),
          UInt8.ofNat (n % 0x40 + 0x80)]
      else
        [UInt8.ofNat (n / 262144 % 0x08 + 0xF0), UInt8.ofNat (n / 4096 % 0x40 + 0x80),
          UInt8.ofNat (n / 64 % 0x40 + 0x80), UInt8.ofNat (n % 0x40 + 0x80)] := by
  rw [String.utf8EncodeChar, show (Char.ofNat n).val.toNat = n from toNat_ofNat valid]

/-- A sequence is the form of its code point. -/
theorem encode_codePoint {tails : Bytes} (demanded : demands b = some ps)
    (met : List.Forall₂ (fun p c => p c = true) ps tails) :
    String.utf8EncodeChar (Char.ofNat (codePoint b tails)) = b :: tails := by
  have bound := b.toNat_lt
  unfold demands at demanded
  simp only [Bool.and_eq_true, decide_eq_true_eq, UInt8.lt_iff_toNat_lt, UInt8.le_iff_toNat_le,
    UInt8.reduceToNat] at demanded
  split_ifs at demanded with one two three four <;> cases demanded
  · cases met
    rw [codePoint, utf8EncodeChar_ofNat (Or.inl (by omega)), if_pos (by omega), UInt8.ofNat_toNat]
    all_goals simp
  · obtain ⟨c, -, tail, ⟨⟩, rfl⟩ := List.forall₂_cons_left_iff.1 met
    rw [isTail_eq_true_iff] at tail
    simp only [codePoint, payload]
    rw [utf8EncodeChar_ofNat (Or.inl (by omega)), if_neg (by omega), if_pos (by omega)]
    simp [← UInt8.toNat_inj]
    omega
  · obtain ⟨c, _, second, others, rfl⟩ := List.forall₂_cons_left_iff.1 met
    obtain ⟨d, -, tail, ⟨⟩, rfl⟩ := List.forall₂_cons_left_iff.1 others
    obtain ⟨second, least, most, -⟩ := isSecond_eq_true_iff.1 second
    rw [isTail_eq_true_iff] at second tail
    simp only [codePoint, payload]
    have valid : Nat.isValidChar ((b.toNat % 16 * 64 + c.toNat % 64) * 64 + d.toNat % 64) := by
      rw [Nat.isValidChar]
      omega
    rw [utf8EncodeChar_ofNat valid, if_neg (by omega), if_neg (by omega), if_pos (by omega)]
    simp [← UInt8.toNat_inj]
    omega
  · obtain ⟨c, _, second, others, rfl⟩ := List.forall₂_cons_left_iff.1 met
    obtain ⟨d, _, tail, others', rfl⟩ := List.forall₂_cons_left_iff.1 others
    obtain ⟨e, -, last, ⟨⟩, rfl⟩ := List.forall₂_cons_left_iff.1 others'
    obtain ⟨second, -, -, least, most⟩ := isSecond_eq_true_iff.1 second
    rw [isTail_eq_true_iff] at second tail last
    simp only [codePoint, payload]
    have valid : Nat.isValidChar
        (((b.toNat % 8 * 64 + c.toNat % 64) * 64 + d.toNat % 64) * 64 + e.toNat % 64) := by
      rw [Nat.isValidChar]
      omega
    rw [utf8EncodeChar_ofNat valid, if_neg (by omega), if_neg (by omega), if_neg (by omega)]
    simp [← UInt8.toNat_inj]
    omega

/-- A unit that is a character was read off the form of that character. -/
theorem eq_of_unit {k : Char} (read : (unit b bs).1 = some k) :
    b :: bs = String.utf8EncodeChar k ++ (unit b bs).2 := by
  unfold unit at read ⊢
  cases demanded : demands b with
  | none => simp [demanded] at read
  | some ps =>
      simp only [demanded, Option.ite_none_right_eq_some] at read ⊢
      obtain ⟨all, same⟩ := read
      rw [← Option.some_inj.1 same, encode_codePoint demanded (forall₂_follow all),
        List.cons_append, follow_split]

theorem follow_of_forall₂ {tails : Bytes} (met : List.Forall₂ (fun p c => p c = true) ps tails)
    (rest : Bytes) : follow ps (tails ++ rest) = (tails, rest) := by
  induction met with
  | nil => rfl
  | cons meets _ ih => rw [List.cons_append, follow, if_pos meets, ih]

/-- The form of a character is a sequence. -/
theorem exists_of_utf8EncodeChar (k : Char) : ∃ b ps tails, String.utf8EncodeChar k = b :: tails ∧
    demands b = some ps ∧ List.Forall₂ (fun p c => p c = true) ps tails := by
  have valid : k.toNat.isValidChar := k.valid
  have form := utf8EncodeChar_ofNat valid
  rw [Char.ofNat_toNat] at form
  rw [form]
  rw [Nat.isValidChar] at valid
  generalize k.toNat = n at *
  have small (m : Nat) (le : m < 256) : (UInt8.ofNat m).toNat = m := by
    rw [UInt8.toNat_ofNat', Nat.mod_eq_of_lt le]
  split_ifs with one two three
  · refine ⟨_, [], [], rfl, ?_, .nil⟩
    simp only [demands, UInt8.lt_iff_toNat_lt, UInt8.reduceToNat]
    rw [small n (by omega), if_pos (by omega)]
  · refine ⟨_, [isTail], _, rfl, ?_, .cons ?_ .nil⟩
    · simp only [demands, Bool.and_eq_true, decide_eq_true_eq, UInt8.lt_iff_toNat_lt,
        UInt8.le_iff_toNat_le, UInt8.reduceToNat]
      rw [small _ (by omega), if_neg (by omega), if_pos (by omega)]
    · rw [isTail_eq_true_iff, small _ (by omega)]
      omega
  · refine ⟨_, [isSecond (.ofNat (n / 4096 % 0x10 + 0xE0)), isTail], _, rfl, ?_,
      .cons ?_ (.cons ?_ .nil)⟩
    · simp only [demands, Bool.and_eq_true, decide_eq_true_eq, UInt8.lt_iff_toNat_lt,
        UInt8.le_iff_toNat_le, UInt8.reduceToNat]
      rw [small _ (by omega), if_neg (by omega), if_neg (by omega), if_pos (by omega)]
    · rw [isSecond_eq_true_iff, isTail_eq_true_iff, small _ (by omega), small _ (by omega)]
      omega
    · rw [isTail_eq_true_iff, small _ (by omega)]
      omega
  · refine ⟨_, [isSecond (.ofNat (n / 262144 % 0x08 + 0xF0)), isTail, isTail], _, rfl, ?_,
      .cons ?_ (.cons ?_ (.cons ?_ .nil))⟩
    · simp only [demands, Bool.and_eq_true, decide_eq_true_eq, UInt8.lt_iff_toNat_lt,
        UInt8.le_iff_toNat_le, UInt8.reduceToNat]
      rw [small _ (by omega), if_neg (by omega), if_neg (by omega), if_neg (by omega),
        if_pos (by omega)]
    · rw [isSecond_eq_true_iff, isTail_eq_true_iff, small _ (by omega), small _ (by omega)]
      omega
    · rw [isTail_eq_true_iff, small _ (by omega)]
      omega
    · rw [isTail_eq_true_iff, small _ (by omega)]
      omega

/-- A character is the first unit of bytes that begin with its form. -/
theorem decodeUnits_utf8EncodeChar_append (k : Char) (rest : Bytes) :
    decodeUnits (String.utf8EncodeChar k ++ rest) = some k :: decodeUnits rest := by
  obtain ⟨b, ps, tails, form, demanded, met⟩ := exists_of_utf8EncodeChar k
  have same : Char.ofNat (codePoint b tails) = k := by
    have forms : String.utf8EncodeChar (Char.ofNat (codePoint b tails)) ++ [] =
        String.utf8EncodeChar k ++ [] := by
      rw [encode_codePoint demanded met, form]
    exact eq_of_utf8EncodeChar_append forms
  have read : unit b (tails ++ rest) = (some k, rest) := by
    simp only [unit, demanded, follow_of_forall₂ met, met.length_eq, if_true, same]
  rw [form, List.cons_append, decodeUnits_cons, read]

/-- A unit is read off the front. -/
theorem unit_suffix (b : UInt8) (bs : Bytes) : (unit b bs).2 <:+ bs := by
  unfold unit
  cases demands b with
  | none => exact List.suffix_rfl
  | some ps => exact ⟨(follow ps bs).1, follow_split ps bs⟩

/-- A malformed stretch has at most three bytes. -/
theorem length_le_of_unit (malformed : (unit b bs).1 = none) :
    bs.length ≤ (unit b bs).2.length + 2 := by
  unfold unit at malformed ⊢
  cases demanded : demands b with
  | none => exact Nat.le_add_right _ _
  | some ps =>
      simp only [demanded, ite_eq_right_iff, reduceCtorEq, imp_false] at malformed ⊢
      have most : ps.length ≤ 3 := by
        unfold demands at demanded
        split_ifs at demanded <;> cases demanded <;> simp
      have le := length_follow_le ps bs
      have whole := congrArg List.length (follow_split ps bs)
      rw [List.length_append] at whole
      omega

/-- What holds of no bytes, and of bytes if it does of those behind their first unit, holds of all
bytes. -/
theorem unit_induction {motive : Bytes → Prop} (nil : motive [])
    (cons : ∀ b bs, motive (unit b bs).2 → motive (b :: bs)) (bytes : Bytes) : motive bytes := by
  match bytes with
  | [] => exact nil
  | b :: bs =>
      have shorter := Nat.lt_succ_of_le (unit_suffix b bs).length_le
      exact cons b bs (unit_induction nil cons (unit b bs).2)
termination_by bytes.length

/-- Reading begins anew at a byte that continues no sequence. -/
theorem decodeUnits_append_cons (ends : isTail c = false) (front back : Bytes) :
    decodeUnits (front ++ c :: back) = decodeUnits front ++ decodeUnits (c :: back) := by
  induction front using unit_induction with
  | nil => rfl
  | cons b bs ih =>
      rw [List.cons_append, decodeUnits_cons, unit_append_cons ends, ih, decodeUnits_cons b bs]
      rfl

end Utf8

open Utf8

/-! ## ASCII -/

section
variable {c : Char} {front back bytes : Bytes} {t u : Text}

theorem decodeLossy_cons (b : UInt8) (bs : Bytes) :
    decodeLossy (b :: bs) = (unit b bs).1.getD '\uFFFD' :: decodeLossy (unit b bs).2 := by
  rw [decodeLossy, decodeUnits_cons]
  rfl

variable (ascii : c.toNat < 0x80)
include ascii

theorem toNat_byte : (UInt8.ofNat c.toNat).toNat = c.toNat := by
  simp
  omega

theorem decodeLossy_byte_cons (back : Bytes) :
    decodeLossy (UInt8.ofNat c.toNat :: back) = c :: decodeLossy back := by
  have low : UInt8.ofNat c.toNat < 0x80 := UInt8.lt_iff_toNat_lt.2 (by rwa [toNat_byte ascii])
  have read : unit (UInt8.ofNat c.toNat) back = (some c, back) := by
    simp only [unit, demands, if_pos low, follow, codePoint]
    rw [toNat_byte ascii, Char.ofNat_toNat]
    rfl
  rw [decodeLossy_cons, read]
  rfl

theorem decodeLossy_append_byte_cons (front back : Bytes) :
    decodeLossy (front ++ UInt8.ofNat c.toNat :: back) =
      decodeLossy front ++ c :: decodeLossy back := by
  have ends : isTail (UInt8.ofNat c.toNat) = false := by
    by_contra tail
    have := (isTail_eq_true_iff.1 (by simpa using tail)).1
    rw [toNat_byte ascii] at this
    omega
  rw [← decodeLossy_byte_cons ascii, decodeLossy, decodeUnits_append_cons ends, List.map_append]
  rfl

/-- A unit that is shown as an ASCII character is that character. -/
theorem cons_eq_of_unit {b : UInt8} {bs : Bytes} (shown : (unit b bs).1.getD '\uFFFD' = c) :
    b :: bs = UInt8.ofNat c.toNat :: (unit b bs).2 := by
  cases read : (unit b bs).1 with
  | none =>
      rw [read] at shown
      subst shown
      simp at ascii
  | some k =>
      rw [read] at shown
      obtain rfl : k = c := shown
      rw [eq_of_unit read, utf8EncodeChar_ascii ascii]
      rfl

/-- A text that bytes are read as is cut before an ASCII character where its byte stands. -/
theorem exists_of_decodeLossy (reads : decodeLossy bytes = t ++ c :: u) :
    ∃ front back, bytes = front ++ UInt8.ofNat c.toNat :: back ∧ decodeLossy front = t ∧
      decodeLossy back = u := by
  have found : ∃ front back, bytes = front ++ UInt8.ofNat c.toNat :: back ∧
      decodeLossy back = u := by
    induction bytes using unit_induction generalizing t with
    | nil => simp [decodeLossy, decodeUnits] at reads
    | cons b bs ih =>
        rw [decodeLossy_cons] at reads
        cases t with
        | nil =>
            obtain ⟨shown, later⟩ := List.cons.inj reads
            exact ⟨[], _, cons_eq_of_unit ascii shown, later⟩
        | cons _ t =>
            obtain ⟨front, back, rest, later⟩ := ih (List.cons.inj reads).2
            obtain ⟨used, whole⟩ := unit_suffix b bs
            exact ⟨b :: used ++ front, back, by rw [← whole, rest, List.append_assoc]; rfl, later⟩
  obtain ⟨front, back, rfl, later⟩ := found
  refine ⟨front, back, rfl, ?_, later⟩
  rw [decodeLossy_append_byte_cons ascii, later] at reads
  exact List.append_cancel_right reads

end

/-! ## Bytes that are a text -/

theorem decodeUnits_encode (t : Text) : decodeUnits (encode t) = t.map some := by
  induction t with
  | nil => rfl
  | cons k t ih => rw [encode_cons, decodeUnits_utf8EncodeChar_append, ih, List.map_cons]

/-- A text is read from its bytes. -/
theorem decodeLossy_encode (t : Text) : decodeLossy (encode t) = t := by
  rw [decodeLossy, decodeUnits_encode, List.map_map]
  exact List.map_id' t

theorem decode?_encode (t : Text) : decode? (encode t) = some t := by
  rw [decode?, decodeUnits_encode]
  induction t with
  | nil => rfl
  | cons k t ih => rw [List.map_cons, List.mapM_cons, ih]; rfl

theorem decode?_cons (b : UInt8) (bs : Bytes) :
    decode? (b :: bs) = (unit b bs).1.bind fun c => (decode? (unit b bs).2).map (c :: ·) := by
  rw [decode?, decodeUnits_cons, List.mapM_cons, decode?]
  cases (unit b bs).1 with
  | none => rfl
  | some c => cases (decodeUnits (unit b bs).2).mapM id <;> rfl

/-- The bytes of U+FFFD are no malformed stretch. -/
theorem unit_of_replacement {b : UInt8} {bs rest : Bytes}
    (whole : b :: bs = String.utf8EncodeChar '\uFFFD' ++ rest) : (unit b bs).1 = some '\uFFFD' := by
  obtain ⟨rfl, rfl⟩ := List.cons.inj whole
  rfl

/-- Bytes come back from the text that they are read as if they are the form of a text, and only
then. -/
theorem encode_decodeLossy_eq_iff (bytes : Bytes) :
    encode (decodeLossy bytes) = bytes ↔ (decode? bytes).isSome := by
  induction bytes using unit_induction with
  | nil => simp [decodeLossy, decode?, decodeUnits, encode]
  | cons b bs ih =>
      rw [decodeLossy_cons, decode?_cons, encode_cons]
      cases read : (unit b bs).1 with
      | none =>
          constructor
          · intro whole
            cases read.symm.trans (unit_of_replacement whole.symm)
          · intro some
            cases some
      | some k =>
          rw [Option.bind_some, Option.isSome_map, ← ih, Option.getD_some, eq_of_unit read]
          exact List.append_right_inj _

/-- Bytes are read as a text if they are its form, and only then. -/
theorem decode?_eq_some_iff {bytes : Bytes} {t : Text} :
    decode? bytes = some t ↔ encode t = bytes := by
  constructor
  · intro read
    have whole := (encode_decodeLossy_eq_iff bytes).2 (read ▸ rfl)
    rw [← whole, decode?_encode, Option.some_inj] at read
    rw [← read, whole]
  · rintro rfl
    exact decode?_encode t

/-- Bytes do not become fewer when they are written again: U+FFFD has three. -/
theorem length_le_encode_decodeLossy (bytes : Bytes) :
    bytes.length ≤ (encode (decodeLossy bytes)).length := by
  induction bytes using unit_induction with
  | nil => exact Nat.zero_le _
  | cons b bs ih =>
      rw [decodeLossy_cons, encode_cons, List.length_append]
      cases read : (unit b bs).1 with
      | none =>
          have form : (String.utf8EncodeChar ((none : Option Char).getD '\uFFFD')).length = 3 := by
            decide
          have short := length_le_of_unit read
          rw [form, List.length_cons]
          omega
      | some k =>
          have whole := congrArg List.length (eq_of_unit read)
          rw [List.length_append] at whole
          rw [Option.getD_some]
          omega

/-- Of bytes in three parts of which the outer two are written again, all stay the same if those two
are well-formed, and only then. -/
theorem encode_append_encode_eq_iff (front inside back : Bytes) :
    encode (decodeLossy front) ++ inside ++ encode (decodeLossy back) = front ++ inside ++ back ↔
      (decode? front).isSome ∧ (decode? back).isSome := by
  rw [← encode_decodeLossy_eq_iff, ← encode_decodeLossy_eq_iff]
  constructor
  · intro same
    have before := length_le_encode_decodeLossy front
    have behind := length_le_encode_decodeLossy back
    have lengths := congrArg List.length same
    simp only [List.length_append] at lengths
    obtain ⟨fronts, backs⟩ := List.append_inj same (by simp only [List.length_append]; omega)
    exact ⟨(List.append_inj fronts (by omega)).1, backs⟩
  · rintro ⟨before, behind⟩
    rw [before, behind]

end PromptDoc.Text
