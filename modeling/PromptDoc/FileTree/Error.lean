/-
# PromptDoc.FileTree.Error — why the file system refuses
-/
import PromptDoc.Text.Basic

namespace PromptDoc

set_option autoImplicit false

/-- Why the file system refuses an operation. -/
inductive FileError where
  | notFound
  | permissionDenied
  | busy
  | alreadyExists
  | notDirectory
  | isDirectory
  | nameTooLong
  | notEmpty
  | tooManyLinks
  /-- A path holds the character NUL. -/
  | nulInPath
  /-- Contents that should be a text are not. -/
  | notText
  /-- No directory above a path can be made. -/
  | noTree
  /-- Any other error, in the system's words. -/
  | other (words : Text)
deriving DecidableEq, Repr

namespace FileError

/-- The error in words, with its number where the system gives it one. -/
def message : FileError → Text
  | .notFound => "No such file or directory (os error 2)".toList
  | .permissionDenied => "Permission denied (os error 13)".toList
  | .busy => "Device or resource busy (os error 16)".toList
  | .alreadyExists => "File exists (os error 17)".toList
  | .notDirectory => "Not a directory (os error 20)".toList
  | .isDirectory => "Is a directory (os error 21)".toList
  | .nameTooLong => "File name too long (os error 36)".toList
  | .notEmpty => "Directory not empty (os error 39)".toList
  | .tooManyLinks => "Too many levels of symbolic links (os error 40)".toList
  | .nulInPath => "file name contained an unexpected NUL byte".toList
  | .notText => "stream did not contain valid UTF-8".toList
  | .noTree => "failed to create whole tree".toList
  | .other words => words

end FileError

end PromptDoc
