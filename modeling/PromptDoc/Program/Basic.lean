/-
# PromptDoc.Program.Basic — starting programs and what they leave

A `Launch` says which program is started, where and with which arguments. What
programs do is not fixed here: `Programs` is any answer to launches, and all that
the rest of the library does with programs goes through such an answer.

A `Launching` says what is launched and how it goes on after each answer. Since it
is data, the launches that it tries can be told (`Launching.launches`) as well as
what it comes to (`Launching.run`).
-/
import PromptDoc.FileTree.Error
import PromptDoc.Text.Utf8

namespace PromptDoc

set_option autoImplicit false

/-- A program to start, in a directory and with arguments. -/
structure Launch where
  directory : Text
  program : Text
  arguments : List Text
deriving DecidableEq, Repr

/-- Why a program could not be started. -/
inductive LaunchError where
  /-- The name or an argument holds the character NUL. -/
  | nulInArgument
  /-- The directory or the program cannot be used. -/
  | refused (error : FileError)
deriving DecidableEq, Repr

namespace LaunchError

def message : LaunchError → Text
  | .nulInArgument => "nul byte found in provided data".toList
  | .refused error => error.message

end LaunchError

/-- How a program ended: its exit status, none when a signal ended it, and the
bytes it wrote. -/
structure ProgramOutput where
  exitCode : Option Int
  stdout : Bytes := []
  stderr : Bytes := []
deriving DecidableEq, Repr

/-- How programs answer when they are started. -/
abbrev Programs := Launch → Except LaunchError ProgramOutput

/-- Launches of programs, and a result. -/
inductive Launching (α : Type) where
  | done (result : α)
  | launch (first : Launch) (rest : Except LaunchError ProgramOutput → Launching α)

namespace Launching

def run {α : Type} (programs : Programs) : Launching α → α
  | .done a => a
  | .launch first rest => (rest (programs first)).run programs

/-- The launches that are tried, in order. -/
def launches {α : Type} (programs : Programs) : Launching α → List Launch
  | .done _ => []
  | .launch first rest => first :: (rest (programs first)).launches programs

end Launching

end PromptDoc
