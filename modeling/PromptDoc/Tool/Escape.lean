/-
# PromptDoc.Tool.Escape — backslash escapes in printed text

An escape begins with a backslash and stands for one byte, given by a letter or
by octal digits; `\c` ends all printing. An escape that is not known stands for
itself.
-/
import PromptDoc.Text.Utf8

namespace PromptDoc.Tool

set_option autoImplicit false

inductive OctalStyle where
  /-- With a zero, which is followed by up to three digits. -/
  | afterZero
  /-- At once: up to three digits. -/
  | atOnce
deriving DecidableEq, Repr

namespace Escape

def letter? : Char → Option UInt8
  | 'a' => some 7
  | 'b' => some 8
  | 'e' => some 27
  | 'f' => some 12
  | 'n' => some 10
  | 'r' => some 13
  | 't' => some 9
  | 'v' => some 11
  | '\x5c' => some 92
  | _ => none

def isOctal (c : Char) : Bool := '0' ≤ c && c ≤ '7'

def octal (digits : Text) : UInt8 :=
  UInt8.ofNat (digits.foldl (fun n c => n * 8 + (c.toNat - 48)) 0)

/-- What an escape stands for, and how many characters after the backslash belong
to it; none for `\c`. -/
def read (style : OctalStyle) (t : Text) : Option (Bytes × Nat) :=
  match t with
  | [] => some ([92], 0)
  | 'c' :: _ => none
  | c :: rest =>
    match letter? c with
    | some b => some ([b], 1)
    | none =>
      if style = .afterZero && c = '0' then
        let digits := (rest.take 3).takeWhile isOctal
        some ([octal digits], digits.length + 1)
      else if style = .atOnce && isOctal c then
        let digits := (t.take 3).takeWhile isOctal
        some ([octal digits], digits.length)
      else some ([92], 0)

/-- The bytes of a text with its escapes resolved, and whether printing goes on
after it. `skip` characters have been read already. -/
def resolve (style : OctalStyle) : Nat → Text → Bytes × Bool
  | _, [] => ([], true)
  | skip + 1, _ :: cs => resolve style skip cs
  | 0, c :: cs =>
    if c = '\x5c' then
      match read style cs with
      | none => ([], false)
      | some (bytes, used) =>
        let (rest, goesOn) := resolve style used cs
        (bytes ++ rest, goesOn)
    else
      let (rest, goesOn) := resolve style 0 cs
      (Text.encode [c] ++ rest, goesOn)

end Escape

end PromptDoc.Tool
