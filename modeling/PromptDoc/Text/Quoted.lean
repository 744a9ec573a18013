/-
# PromptDoc.Text.Quoted — a text on one line, in quotes

A quoted text stands between double quotes. Quotes and backslashes are marked by
a backslash; tabs, line ends and NUL have short names; whatever has no shape of
its own is written by its code point, as in `\u{1b}`. So a quoted text never
holds a line end.
-/
import PromptDoc.Text.Basic
import PromptDoc.Text.EscapeData

namespace PromptDoc.Text

set_option autoImplicit false

/-- The code point of a character in lower case hexadecimal digits, in braces. -/
def codePointEscape (c : Char) : Text :=
  "\\u\x7b".toList ++ Nat.toDigits 16 c.toNat ++ ['\x7d']

/-- How a character is written inside quotes. -/
def quoteChar (c : Char) : Text :=
  if c == '\x00' then "\\0".toList
  else if c == '\t' then "\\t".toList
  else if c == '\r' then "\\r".toList
  else if c == '\n' then "\\n".toList
  else if c == '\x22' then "\\\"".toList
  else if c == '\x5c' then "\\\\".toList
  else if EscapeData.hidden.has c then codePointEscape c
  else [c]

/-- The text in double quotes, on one line. -/
def quote (t : Text) : Text := ['\x22'] ++ t.flatMap quoteChar ++ ['\x22']

/-- A text of at most `limit` characters: a longer one ends in three dots. -/
def ellipsis (limit : Nat) (t : Text) : Text :=
  if t.length ≤ limit then t else t.take (limit - 3) ++ "...".toList

end PromptDoc.Text
