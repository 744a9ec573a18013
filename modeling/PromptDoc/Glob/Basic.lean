/-
# PromptDoc.Glob.Basic — patterns for paths

A glob is a sequence of tokens. `?` and `*` also match slashes; `**` together
with the slashes beside it stands for directories, and what it means depends on
whether it is at the beginning (`Token.leading`), at the end (`Token.trailing`)
or between (`Token.between`).
-/
import PromptDoc.Text.Basic

namespace PromptDoc

set_option autoImplicit false

namespace Glob

inductive Token where
  /-- A character that stands for itself. -/
  | literal (c : Char)
  /-- `?`: any one byte. -/
  | any
  /-- `*`: anything, also nothing. -/
  | many
  /-- `**` at the beginning, with the slash after it: any directories, or none. -/
  | leading
  /-- `**` at the end, with the slash before it: whatever is in a directory. -/
  | trailing
  /-- `**` with a slash before and after it: any directories between, or none. -/
  | between
  /-- A class in brackets: one byte that is in one of the ranges, or in none. -/
  | oneOf (negated : Bool) (ranges : List (Char × Char))
  /-- A group in braces: any one of its branches. -/
  | alternatives (branches : List (List Token))

/-- Why a text is no glob. -/
inductive Defect where
  | unclosedClass
  /-- The range of a class ends before it begins. -/
  | invalidRange (first last : Char)
  | unopenedGroup
  | unclosedGroup
deriving DecidableEq, Repr

def Defect.message : Defect → Text
  | .unclosedClass => "unclosed character class; missing ']'".toList
  | .invalidRange first last =>
    "invalid range; '".toList ++ [first] ++ "' > '".toList ++ [last] ++ "'".toList
  | .unopenedGroup =>
    "unopened alternate group; missing '\x7b' (maybe escape '\x7d' with '[\x7d]'?)".toList
  | .unclosedGroup =>
    "unclosed alternate group; missing '\x7d' (maybe escape '\x7b' with '[\x7b]'?)".toList

end Glob

/-- A pattern for paths. -/
structure Glob where
  tokens : List Glob.Token

end PromptDoc
