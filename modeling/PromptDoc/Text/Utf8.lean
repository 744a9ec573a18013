/-
# PromptDoc.Text.Utf8 — bytes and texts

The UTF-8 form of a text and the three ways back: `decodeUnits` reads bytes one
unit at a time, a unit being a character or a malformed stretch; `decode?`
accepts only bytes without a malformed stretch; `decodeLossy` writes U+FFFD for
each malformed stretch.

A malformed stretch is the longest start of a well-formed sequence that the
bytes break off, and a single byte where not even the first byte can start one.
-/
import PromptDoc.Text.Basic

namespace PromptDoc

set_option autoImplicit false

/-- The contents of a file or of a stream. -/
abbrev Bytes := List UInt8

namespace Text

def encode (t : Text) : Bytes := t.flatMap String.utf8EncodeChar

namespace Utf8

/-- Whether a byte continues a sequence. -/
def isTail (b : UInt8) : Bool := 0x80 ≤ b && b ≤ 0xBF

/-- Whether `b` can be the second byte after the first byte `lead` of a sequence
of three or four bytes: surrogates, values past the last code point and forms
longer than needed are cut off here. -/
def isSecond (lead b : UInt8) : Bool :=
  if lead == 0xE0 then 0xA0 ≤ b && b ≤ 0xBF
  else if lead == 0xED then 0x80 ≤ b && b ≤ 0x9F
  else if lead == 0xF0 then 0x90 ≤ b && b ≤ 0xBF
  else if lead == 0xF4 then 0x80 ≤ b && b ≤ 0x8F
  else isTail b

/-- The six bits that a continuing byte carries. -/
def payload (b : UInt8) : Nat := b.toNat % 64

/-- Reads bytes unit by unit; `none` stands for a malformed stretch. -/
def decodeUnits : Bytes → List (Option Char)
  | [] => []
  | b :: bs =>
    if b < 0x80 then some (Char.ofNat b.toNat) :: decodeUnits bs
    else if 0xC2 ≤ b && b ≤ 0xDF then
      match bs with
      | c :: cs =>
        if isTail c then
          some (Char.ofNat (b.toNat % 32 * 64 + payload c)) :: decodeUnits cs
        else none :: decodeUnits (c :: cs)
      | [] => [none]
    else if 0xE0 ≤ b && b ≤ 0xEF then
      match bs with
      | c :: cs =>
        if isSecond b c then
          match cs with
          | d :: ds =>
            if isTail d then
              some (Char.ofNat ((b.toNat % 16 * 64 + payload c) * 64 + payload d)) ::
                decodeUnits ds
            else none :: decodeUnits (d :: ds)
          | [] => [none]
        else none :: decodeUnits (c :: cs)
      | [] => [none]
    else if 0xF0 ≤ b && b ≤ 0xF4 then
      match bs with
      | c :: cs =>
        if isSecond b c then
          match cs with
          | d :: ds =>
            if isTail d then
              match ds with
              | e :: es =>
                if isTail e then
                  some (Char.ofNat
                    (((b.toNat % 8 * 64 + payload c) * 64 + payload d) * 64 + payload e)) ::
                    decodeUnits es
                else none :: decodeUnits (e :: es)
              | [] => [none]
            else none :: decodeUnits (d :: ds)
          | [] => [none]
        else none :: decodeUnits (c :: cs)
      | [] => [none]
    else none :: decodeUnits bs

end Utf8

/-- The text whose UTF-8 form the bytes are, if there is one. -/
def decode? (bytes : Bytes) : Option Text := (Utf8.decodeUnits bytes).mapM id

/-- The text of the bytes, with U+FFFD for each malformed stretch. -/
def decodeLossy (bytes : Bytes) : Text :=
  (Utf8.decodeUnits bytes).map (·.getD '\uFFFD')

end Text

end PromptDoc
