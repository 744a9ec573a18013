/-
# PromptDoc.Proofs.Text.Bytes — positions in the UTF-8 form of a text

A position is a number of bytes. It is good for cutting a text only where a
character starts or the text ends; `splitAt?` cuts there and nowhere else
(`splitAt?_eq_some_iff`), and `slice?` is the stretch between two such positions,
if the first is not behind the second. A slice is the same stretch of the bytes
(`encode_slice?`).

A text is cut in one way at a position (`append_inj_of_byteLength`), and of two
cuts the one at the smaller position comes first (`append_of_byteLength_le`).

The bytes are those of no other text (`encode_injective`), and where the byte of an
ASCII character stands among them, the text holds that character
(`encode_eq_append_cons_iff`).
-/
import Mathlib.Data.List.Basic
import PromptDoc.Text.Utf8

namespace PromptDoc.Text

set_option autoImplicit false

/-- The parts of a text before and from byte `n`; none if `n` is past the end of the text or
inside a character. -/
def splitAt? : Nat → Text → Option (Text × Text)
  | 0, t => some ([], t)
  | _ + 1, [] => none
  | n + 1, c :: cs =>
      if n + 1 < c.utf8Size then none
      else (splitAt? (n + 1 - c.utf8Size) cs).map fun (front, back) => (c :: front, back)

/-- The text from byte `start` to byte `stop`. -/
def slice? (t : Text) (start stop : Nat) : Option Text := do
  let (_, back) ← splitAt? start t
  if stop < start then none
  let (inside, _) ← splitAt? (stop - start) back
  return inside

/-! ## Counting bytes -/

@[simp] theorem byteLength_nil : byteLength [] = 0 := rfl

@[simp] theorem byteLength_cons (c : Char) (t : Text) :
    byteLength (c :: t) = c.utf8Size + byteLength t := rfl

@[simp] theorem byteLength_append (a b : Text) :
    byteLength (a ++ b) = byteLength a + byteLength b := by
  induction a with
  | nil => simp
  | cons c cs ih => simp [ih, Nat.add_assoc]

theorem byteLength_pos {t : Text} (nonempty : t ≠ []) : 0 < byteLength t := by
  cases t with
  | nil => exact absurd rfl nonempty
  | cons c cs =>
      have := c.utf8Size_pos
      rw [byteLength_cons]
      omega

theorem encode_append (a b : Text) : encode (a ++ b) = encode a ++ encode b := List.flatMap_append

theorem encode_cons (c : Char) (t : Text) :
    encode (c :: t) = String.utf8EncodeChar c ++ encode t := rfl

/-- The bytes of a text are counted by its characters. -/
theorem length_encode (t : Text) : (encode t).length = byteLength t := by
  induction t with
  | nil => rfl
  | cons c cs ih =>
      rw [encode_cons, List.length_append, ih, String.length_utf8EncodeChar, byteLength_cons]

/-! ## Cutting at a position -/

/-- Of two cuts of a text, the one at the smaller position comes first. -/
theorem append_of_byteLength_le {a b c d : Text} (whole : a ++ b = c ++ d)
    (le : byteLength a ≤ byteLength c) : ∃ between, c = a ++ between ∧ b = between ++ d := by
  rcases List.append_eq_append_iff.1 whole with ⟨between, rfl, rfl⟩ | ⟨between, rfl, rfl⟩
  · exact ⟨between, rfl, rfl⟩
  · have empty : between = [] := by
      by_contra nonempty
      have := byteLength_pos nonempty
      rw [byteLength_append] at le
      omega
    exact ⟨[], by simp [empty], by simp [empty]⟩

/-- A text is cut in one way at a position. -/
theorem append_inj_of_byteLength {a b c d : Text} (whole : a ++ b = c ++ d)
    (same : byteLength a = byteLength c) : a = c ∧ b = d := by
  obtain ⟨between, rfl, rfl⟩ := append_of_byteLength_le whole (Nat.le_of_eq same)
  have empty : between = [] := by
    by_contra nonempty
    have := byteLength_pos nonempty
    rw [byteLength_append] at same
    omega
  simp [empty]

theorem splitAt?_append (a b : Text) : splitAt? (byteLength a) (a ++ b) = some (a, b) := by
  induction a with
  | nil => cases b <;> rfl
  | cons c cs ih =>
      have size := c.utf8Size_pos
      obtain ⟨n, succ⟩ : ∃ n, byteLength (c :: cs) = n + 1 :=
        Nat.exists_eq_succ_of_ne_zero (by rw [byteLength_cons]; omega)
      have rest : n + 1 - c.utf8Size = byteLength cs := by
        rw [byteLength_cons] at succ
        omega
      rw [byteLength_cons] at succ
      rw [byteLength_cons, succ, List.cons_append, splitAt?, if_neg (by omega), rest, ih,
        Option.map_some]

theorem splitAt?_eq_some_iff {n : Nat} {t front back : Text} :
    splitAt? n t = some (front, back) ↔ t = front ++ back ∧ byteLength front = n := by
  constructor
  · intro h
    induction t generalizing n front with
    | nil =>
        cases n with
        | zero =>
            cases h
            exact ⟨rfl, rfl⟩
        | succ n => cases h
    | cons c cs ih =>
        cases n with
        | zero =>
            cases h
            exact ⟨rfl, rfl⟩
        | succ n =>
            simp only [splitAt?, Option.ite_none_left_eq_some, Option.map_eq_some_iff,
              Prod.mk.injEq, Prod.exists] at h
            obtain ⟨fits, front, back, found, rfl, rfl⟩ := h
            obtain ⟨rfl, size⟩ := ih found
            refine ⟨rfl, ?_⟩
            rw [byteLength_cons]
            omega
  · rintro ⟨rfl, rfl⟩
    exact splitAt?_append front back

/-- A slice stands between what is before its start and what is behind its stop. -/
theorem slice?_eq_some_iff {t inside : Text} {start stop : Nat} :
    slice? t start stop = some inside ↔
      ∃ front back, t = front ++ inside ++ back ∧ byteLength front = start ∧
        byteLength (front ++ inside) = stop := by
  simp only [slice?, Option.bind_eq_bind, Option.bind_eq_some_iff, Prod.exists,
    splitAt?_eq_some_iff]
  constructor
  · rintro ⟨front, rest, ⟨rfl, rfl⟩, h⟩
    split at h
    · simp at h
    · simp only [Option.pure_def, Option.bind_eq_some_iff, Option.some.injEq,
        Prod.exists, splitAt?_eq_some_iff] at h
      obtain ⟨_, back, ⟨rfl, size⟩, rfl⟩ := h
      refine ⟨front, back, by simp, rfl, ?_⟩
      rw [byteLength_append]
      omega
  · rintro ⟨front, back, rfl, rfl, rfl⟩
    refine ⟨front, inside ++ back, ⟨by simp, rfl⟩, ?_⟩
    have ahead : ¬ byteLength (front ++ inside) < byteLength front := by
      rw [byteLength_append]
      omega
    have size : byteLength (front ++ inside) - byteLength front = byteLength inside := by
      rw [byteLength_append]
      omega
    rw [if_neg ahead, size, splitAt?_append]
    rfl

/-- A slice of a text is the slice of its bytes. -/
theorem encode_slice? {t inside : Text} {start stop : Nat} (h : slice? t start stop = some inside) :
    ((encode t).drop start).take (stop - start) = encode inside := by
  obtain ⟨front, back, rfl, rfl, rfl⟩ := slice?_eq_some_iff.1 h
  have size : byteLength (front ++ inside) - byteLength front = (encode inside).length := by
    rw [byteLength_append, length_encode]
    omega
  rw [size, encode_append, encode_append, List.append_assoc, ← length_encode front,
    List.drop_left, List.take_left]

/-! ## The bytes of characters -/

/-- The UTF-8 form of a text is that of no other. -/
theorem encode_injective {a b : Text} (same : encode a = encode b) : a = b :=
  String.ofList_injective (String.toByteArray_inj.1 (congrArg List.toByteArray same))

/-- The form of a character is no front of another's. -/
theorem eq_of_utf8EncodeChar_append {c d : Char} {front back : Bytes}
    (same : String.utf8EncodeChar c ++ front = String.utf8EncodeChar d ++ back) : c = d := by
  have read (e : Char) (rest : Bytes) :
      (String.utf8EncodeChar e ++ rest).toByteArray.utf8DecodeChar? 0 = some e := by
    rw [List.toByteArray_append]
    exact ByteArray.utf8DecodeChar?_utf8EncodeChar_append
  exact Option.some.inj ((read c front).symm.trans (same ▸ read d back))

section

variable {c d : Char} (ascii : c.toNat < 0x80)
include ascii

theorem utf8EncodeChar_ascii : String.utf8EncodeChar c = [UInt8.ofNat c.toNat] := by
  rw [String.utf8EncodeChar]
  exact if_pos (Nat.le_of_lt_succ ascii)

theorem encode_ascii_cons (t : Text) :
    encode (c :: t) = UInt8.ofNat c.toNat :: encode t := by
  rw [encode_cons, utf8EncodeChar_ascii ascii, List.singleton_append]

/-- The byte of an ASCII character is no part of another character. -/
theorem eq_of_byte_mem (inside : UInt8.ofNat c.toNat ∈ String.utf8EncodeChar d) : d = c := by
  obtain ⟨i, inRange, here⟩ := List.getElem_of_mem inside
  have starts : (String.utf8EncodeChar d)[i].IsUTF8FirstByte := by
    have low : ∀ n < 0x80, (UInt8.ofNat n).IsUTF8FirstByte := by decide
    exact here ▸ low c.toNat ascii
  obtain rfl := UInt8.isUTF8FirstByte_getElem_utf8EncodeChar.1 starts
  obtain ⟨b, more, form⟩ := List.exists_cons_of_ne_nil (String.utf8EncodeChar_ne_nil (c := d))
  simp only [form, List.getElem_cons_zero] at here
  subst here
  refine @eq_of_utf8EncodeChar_append _ _ [] more ?_
  rw [utf8EncodeChar_ascii ascii, List.append_nil, form, List.singleton_append]

/-- The bytes of a text are cut before an ASCII character where the text is. -/
theorem encode_eq_append_cons_iff {t : Text} {front back : Bytes} :
    encode t = front ++ UInt8.ofNat c.toNat :: back ↔
      ∃ a b, t = a ++ c :: b ∧ encode a = front ∧ encode b = back := by
  constructor
  · intro whole
    induction t generalizing front with
    | nil => simp [encode] at whole
    | cons d ds ih =>
        rw [encode_cons] at whole
        rcases List.append_eq_append_iff.1 whole with ⟨more, rfl, later⟩ | ⟨more, form, behind⟩
        · obtain ⟨a, b, rfl, before, after⟩ := ih later
          exact ⟨d :: a, b, rfl, by rw [← before]; rfl, after⟩
        · cases more with
          | nil =>
              obtain ⟨a, b, rfl, before, after⟩ := @ih [] behind.symm
              refine ⟨d :: a, b, rfl, ?_, after⟩
              rw [encode_cons, before, form]
              simp
          | cons m ms =>
              obtain ⟨rfl, rest⟩ := List.cons.inj behind
              obtain rfl := eq_of_byte_mem ascii (d := d) (by simp [form])
              have lone : front ++ UInt8.ofNat d.toNat :: ms = [UInt8.ofNat d.toNat] :=
                form.symm.trans (utf8EncodeChar_ascii ascii)
              have short := congrArg List.length lone
              simp only [List.length_append, List.length_cons, List.length_nil] at short
              obtain rfl : front = [] := List.length_eq_zero_iff.1 (by omega)
              obtain rfl : ms = [] := List.length_eq_zero_iff.1 (by omega)
              exact ⟨[], ds, rfl, rfl, rest.symm⟩
  · rintro ⟨a, b, rfl, rfl, rfl⟩
    rw [encode_append, encode_ascii_cons ascii]

/-- A text holds an ASCII character if its bytes hold that of the character. -/
theorem byte_mem_encode_iff {t : Text} : UInt8.ofNat c.toNat ∈ encode t ↔ c ∈ t := by
  constructor
  · intro inside
    obtain ⟨front, back, whole⟩ := List.append_of_mem inside
    obtain ⟨a, b, rfl, -, -⟩ := (encode_eq_append_cons_iff ascii).1 whole
    simp
  · intro inside
    obtain ⟨a, b, rfl⟩ := List.append_of_mem inside
    rw [(encode_eq_append_cons_iff ascii).2 ⟨a, b, rfl, rfl, rfl⟩]
    simp

end
end PromptDoc.Text
