/-
# PromptDoc.Text.Basic — texts, blanks and trimming

A text is the list of its characters, and every position the library reports is
an offset in the UTF-8 form of the text (`Text.byteLength`). A blank is a
character of Unicode `White_Space`; trimming, splitting into lines and the
directive grammar all use this one class (`Text.isBlank`).

`Text.cutAt?` cuts a text at the first place where a given text stands. The
lemmas kept here say that cutting loses nothing (`append_of_cutAt?`) and that
what is left over is never longer than the text (`length_of_cutAt?`), which is
what the scans built on it need in order to end.
-/
namespace PromptDoc

set_option autoImplicit false

/-- A text is the list of its characters. -/
abbrev Text := List Char

instance : LawfulBEq Text := inferInstanceAs (LawfulBEq (List Char))

namespace Text

/-- The characters of Unicode `White_Space`. -/
def isBlank (c : Char) : Bool :=
  let n := c.toNat
  (0x09 ≤ n && n ≤ 0x0D) || n == 0x20 || n == 0x85 || n == 0xA0 || n == 0x1680 ||
    (0x2000 ≤ n && n ≤ 0x200A) || n == 0x2028 || n == 0x2029 || n == 0x202F ||
    n == 0x205F || n == 0x3000

def trimStart (t : Text) : Text := t.dropWhile isBlank

def trimEnd (t : Text) : Text := (t.reverse.dropWhile isBlank).reverse

def trim (t : Text) : Text := trimEnd (trimStart t)

def byteLength : Text → Nat
  | [] => 0
  | c :: t => c.utf8Size + byteLength t

/-- The text between line feeds; one line more than there are line feeds. -/
def lines (t : Text) : List Text := t.splitOn '\n'

def ofNat (n : Nat) : Text := Nat.toDigits 10 n

/-- The decimal digits of a number, with a minus sign before a negative one. -/
def ofInt : Int → Text
  | .ofNat n => ofNat n
  | .negSucc n => '-' :: ofNat (n + 1)

/-- The order of texts by code point, which is also the order of their UTF-8 bytes. -/
def le (a b : Text) : Bool := !decide (b < a)

/-- Texts in increasing order by code point. -/
def sort (ts : List Text) : List Text := ts.mergeSort le

/-- The text with `c` filled in on the right up to `width` characters. -/
def padRight (c : Char) (width : Nat) (t : Text) : Text :=
  t ++ List.replicate (width - t.length) c

/-- Cuts a text at the first place where `needle` stands: what is before that
place, and what is after the needle. -/
def cutAt? (needle : Text) : Text → Option (Text × Text)
  | [] => (needle.isPrefixOf? []).map fun rest => ([], rest)
  | c :: cs =>
    match needle.isPrefixOf? (c :: cs) with
    | some rest => some ([], rest)
    | none => (cutAt? needle cs).map fun (before, after) => (c :: before, after)

/-- What a text holds besides what it starts with. -/
theorem append_of_isPrefixOf? {front t rest : Text} (h : front.isPrefixOf? t = some rest) :
    front ++ rest = t := by
  induction front generalizing t with
  | nil =>
    have whole : ([] : Text).isPrefixOf? t = some t := by cases t <;> rfl
    simpa [whole, eq_comm] using h
  | cons f fs ih =>
    cases t with
    | nil => cases h
    | cons c cs =>
      have step : (f :: fs).isPrefixOf? (c :: cs) =
          if f == c then fs.isPrefixOf? cs else none := rfl
      rw [step] at h
      by_cases same : f = c
      · subst same
        simp only [BEq.rfl, if_true] at h
        simp [ih h]
      · simp [same] at h

/-- Cutting a text loses nothing. -/
theorem append_of_cutAt? {needle t before after : Text}
    (h : cutAt? needle t = some (before, after)) : before ++ needle ++ after = t := by
  induction t generalizing before after with
  | nil =>
    simp only [cutAt?, Option.map_eq_some_iff, Prod.mk.injEq] at h
    obtain ⟨rest, found, rfl, rfl⟩ := h
    simpa using append_of_isPrefixOf? found
  | cons c cs ih =>
    unfold cutAt? at h
    split at h
    · rename_i rest found
      cases h
      simpa using append_of_isPrefixOf? found
    · simp only [Option.map_eq_some_iff, Prod.mk.injEq, Prod.exists] at h
      obtain ⟨b, a, found, rfl, rfl⟩ := h
      simpa using ih found

/-- What stands after the cut is shorter by the needle at least. -/
theorem length_of_cutAt? {needle t before after : Text}
    (h : cutAt? needle t = some (before, after)) : after.length + needle.length ≤ t.length := by
  have whole := congrArg List.length (append_of_cutAt? h)
  simp only [List.length_append] at whole
  omega

end Text

end PromptDoc
