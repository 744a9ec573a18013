/-
# PromptDoc.Proofs.FileTree.FileName — names by their bytes

Whatever bytes a system takes for a name make a name here, which has these bytes and no others
(`bytes_ofBytes`). `IsLegal` are the names that come about in this way.

A name that is UTF-8 and holds no backslash (`IsPlain`) is a text without slashes of either
kind (`IsLegal.isPlain_iff`) and is shown as that text (`shown_of_free`). Others may be shown
alike, since U+FFFD stands for whatever is malformed.
-/
import PromptDoc.Proofs.FileTree.Walk
import PromptDoc.Proofs.Text.Decoding

namespace PromptDoc

set_option autoImplicit false

open Text

namespace FileName

variable {name : Text} {b : Bytes}

theorem bytes_of_free (free : '/' ∉ name) : bytes name = encode name := by
  unfold bytes
  split
  · simp at free
  · rfl

/-- A name that is a text is shown as it is. -/
theorem shown_of_free (free : '/' ∉ name) : shown name = name := by
  rw [shown, bytes_of_free free, decodeLossy_encode]

theorem bytes_eq_nil_iff : bytes name = [] ↔ name = [] := by
  unfold bytes
  split
  · simp
  · cases name with
    | nil => simp [encode]
    | cons c cs => simp [encode_cons]

theorem shown_eq_nil_iff : shown name = [] ↔ name = [] := by
  refine Iff.trans ?_ bytes_eq_nil_iff
  rw [shown]
  cases bytes name with
  | nil => simp [decodeLossy, Utf8.decodeUnits]
  | cons b bs => simp [decodeLossy_cons]

/-- Bytes without a slash are the bytes of the name that they make. -/
theorem bytes_ofBytes (free : 0x2F ∉ b) : bytes (ofBytes b) = b := by
  cases read : decode? b with
  | some t =>
      obtain rfl := decode?_eq_some_iff.1 read
      have free' : '/' ∉ t := fun held => free ((byte_mem_encode_iff (by decide)).2 held)
      rw [ofBytes, read]
      exact bytes_of_free free'
  | none =>
      have back (u : UInt8) : UInt8.ofNat (Char.ofNat u.toNat).toNat = u := by
        have bound := u.toNat_lt
        rw [Utf8.toNat_ofNat (Or.inl (by omega)), UInt8.ofNat_toNat]
      rw [ofBytes, read]
      cases b with
      | nil => cases read
      | cons u us =>
          simp only [bytes, List.map_cons, List.map_map, Function.comp_def, back, List.map_id']

end FileName

namespace FileTree

/-- A name that an entry of a directory can have: its bytes are no more than a name may have, none
of them is a slash or NUL, and they are neither of the names that every directory has. -/
structure IsLegal (name : Text) : Prop where
  written : FileName.ofBytes (FileName.bytes name) = name
  nonempty : FileName.bytes name ≠ []
  ne_dot : FileName.bytes name ≠ encode ['.']
  ne_dots : FileName.bytes name ≠ encode ['.', '.']
  short : (FileName.bytes name).length ≤ maxName
  free : 0x2F ∉ FileName.bytes name
  noNul : 0 ∉ FileName.bytes name

/-- A name that is UTF-8 without a backslash. -/
structure IsPlain (name : Text) : Prop where
  text : (decode? (FileName.bytes name)).isSome
  unslashed : 0x5C ∉ FileName.bytes name

variable {name : Text}

instance (name : Text) : Decidable (IsLegal name) :=
  decidable_of_iff
    ((FileName.ofBytes (FileName.bytes name) = name ∧ FileName.bytes name ≠ [] ∧
      FileName.bytes name ≠ encode ['.'] ∧ FileName.bytes name ≠ encode ['.', '.']) ∧
      (FileName.bytes name).length ≤ maxName ∧ 0x2F ∉ FileName.bytes name ∧
        0 ∉ FileName.bytes name)
    ⟨fun ⟨⟨written, nonempty, dot, dots⟩, short, free, noNul⟩ =>
        ⟨written, nonempty, dot, dots, short, free, noNul⟩,
      fun legal => ⟨⟨legal.written, legal.nonempty, legal.ne_dot, legal.ne_dots⟩, legal.short,
        legal.free, legal.noNul⟩⟩

instance (name : Text) : Decidable (IsPlain name) :=
  decidable_of_iff ((decode? (FileName.bytes name)).isSome ∧ 0x5C ∉ FileName.bytes name)
    ⟨fun ⟨text, unslashed⟩ => ⟨text, unslashed⟩, fun plain => ⟨plain.text, plain.unslashed⟩⟩

theorem isPlain_of_free (slash : '/' ∉ name) (backslash : '\x5c' ∉ name) : IsPlain name := by
  have form := FileName.bytes_of_free slash
  constructor
  · rw [form, decode?_encode]
    rfl
  · rw [form]
    exact fun held => backslash ((byte_mem_encode_iff (by decide)).1 held)

/-- A plain name is a text without slashes of either kind. -/
theorem IsLegal.isPlain_iff (legal : IsLegal name) :
    IsPlain name ↔ '/' ∉ name ∧ '\x5c' ∉ name := by
  constructor
  · rintro ⟨text, unslashed⟩
    obtain ⟨t, read⟩ := Option.isSome_iff_exists.1 text
    obtain rfl : t = name := by
      have written := legal.written
      rwa [FileName.ofBytes, read] at written
    rw [← decode?_eq_some_iff.1 read] at unslashed
    have free := legal.free
    rw [← decode?_eq_some_iff.1 read] at free
    exact ⟨fun held => free ((byte_mem_encode_iff (by decide)).2 held),
      fun held => unslashed ((byte_mem_encode_iff (by decide)).2 held)⟩
  · rintro ⟨slash, backslash⟩
    exact isPlain_of_free slash backslash

section
variable (legal : IsLegal name) (plain : IsPlain name)
include legal plain

theorem IsLegal.free_of_isPlain : '/' ∉ name := (legal.isPlain_iff.1 plain).1

theorem IsLegal.bytes_of_isPlain : FileName.bytes name = encode name :=
  FileName.bytes_of_free (legal.free_of_isPlain plain)

theorem IsLegal.isName : IsName name where
  ne_dot dot := legal.ne_dot (by rw [legal.bytes_of_isPlain plain, dot])
  ne_dots dots := legal.ne_dots (by rw [legal.bytes_of_isPlain plain, dots])
  short := by
    rw [← length_encode, ← legal.bytes_of_isPlain plain]
    exact legal.short

theorem IsLegal.nul_not_mem : '\x00' ∉ name := by
  intro held
  have inside := (byte_mem_encode_iff (by decide : '\x00'.toNat < 0x80)).2 held
  rw [← legal.bytes_of_isPlain plain] at inside
  exact legal.noNul inside

end

end FileTree

end PromptDoc
