/-
# PromptDoc.Exclude.Gitignore — exclude patterns from a `.gitignore`

Every line of a `.gitignore` that says what to ignore becomes one pattern that
applies at any depth. A line that ends in a slash, or holds no dot, is taken for a
directory and stands for what is in it. Whatever the file says, the contents of
`.git` directories are excluded.
-/
import PromptDoc.Text.Basic

namespace PromptDoc

set_option autoImplicit false

namespace Gitignore

/-- Excludes the contents of `.git` directories. -/
def gitDirectory : Text := "**/.git/**".toList

/-- Whether a trimmed line says what to ignore: it is not blank, no comment and
no exception. -/
def isRule : Text → Bool
  | [] => false
  | c :: _ => c ≠ '#' && c ≠ '!'

def unanchored : Text → Text
  | '/' :: rule => rule
  | rule => rule

/-- A rule that applies at any depth. -/
def anywhere (rule : Text) : Text :=
  if "**/".toList.isPrefixOf rule then rule else "**/".toList ++ rule

/-- A pattern that excludes what is in a directory, where a rule means one. -/
def withContents (pattern : Text) : Text :=
  if pattern.getLast? = some '/' then
    (pattern.reverse.dropWhile (· = '/')).reverse ++ "/**".toList
  else if "/**".toList.isSuffixOf pattern || pattern.contains '.' then pattern
  else pattern ++ "/**".toList

def pattern (rule : Text) : Text := withContents (anywhere (unanchored rule))

def patterns (t : Text) : List Text :=
  ((t.lines.map Text.trim).filter isRule).map pattern ++ [gitDirectory]

end Gitignore

end PromptDoc
