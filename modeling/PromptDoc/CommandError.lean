/-
# PromptDoc.CommandError — why a command stops

Each cause belongs to one of three categories, which decides the exit status and
how the message begins. Failures inside a document are not among them: they stay
in the expanded text (`ExpandError`).
-/
import PromptDoc.Config.Basic
import PromptDoc.Glob.Expression
import PromptDoc.Program.Basic

namespace PromptDoc

set_option autoImplicit false

/-- Who has to mend a failure. -/
inductive Category where
  /-- Arguments, settings or documents that cannot be used. -/
  | user
  /-- Git refused. -/
  | git
  /-- Something could not be listed or written. -/
  | io
deriving DecidableEq, Repr

namespace Category

def exitCode : Category → Nat
  | .user => 1
  | .git => 3
  | .io => 5

def heading : Category → Text
  | .user => []
  | .git => "Git operation failed: ".toList
  | .io => "I/O failure: ".toList

end Category

/-- Why a command stops. -/
inductive CommandError where
  | tags (defect : TagDefect)
  | config (defect : ConfigDefect)
  /-- The settings are not YAML, or not settings. -/
  | malformedConfig
  | configUnreadable (path : Text) (error : FileError)
  | documentUnreadable (path : Text) (error : FileError)
  /-- Standard input is not a text. -/
  | inputNotText
  | rootNotDirectory (path : Text)
  | invalidOutputPath (path : Text)
  /-- Git could not be started. -/
  | gitNotStarted (operation : Text) (error : LaunchError)
  /-- Git ended with a status other than 0; a signal counts as -1. -/
  | gitFailed (operation : Text) (code : Int) (complaint : Text)
  | notListable (path : Text)
  /-- An exclude pattern is nested too deep. -/
  | excludesTooDeep (defect : Glob.NestingDefect)
  | createDirectory (path : Text) (error : FileError)
  | createTemporary (path : Text) (error : FileError)
  | write (path : Text) (error : FileError)
  | replace (path : Text) (error : FileError)
deriving DecidableEq, Repr

namespace CommandError

def category : CommandError → Category
  | .gitNotStarted .. | .gitFailed .. => .git
  | .notListable .. | .createDirectory .. | .createTemporary .. | .write .. | .replace .. => .io
  | _ => .user

/-- What was attempted on a path, and why it failed. -/
def about (attempt : String) (path : Text) (reason : Text) : Text :=
  attempt.toList ++ " '".toList ++ path ++ "': ".toList ++ reason

def reason : CommandError → Text
  | .tags defect => defect.message
  | .config defect => defect.message
  | .malformedConfig => "failed to parse config YAML: ".toList
  | .configUnreadable path error => about "failed to read config file" path error.message
  | .documentUnreadable path error => about "failed to read" path error.message
  | .inputNotText => "failed to read stdin: ".toList ++ FileError.notText.message
  | .rootNotDirectory path =>
    "workspace root '".toList ++ path ++ "' is not a directory".toList
  | .invalidOutputPath path => "invalid output path '".toList ++ path ++ "'".toList
  | .gitNotStarted operation error =>
    "failed to execute git ".toList ++ operation ++ ": ".toList ++ error.message ++
      " (is git installed?)".toList
  | .gitFailed operation code complaint =>
    "git ".toList ++ operation ++ " failed (exit code ".toList ++ Text.ofInt code ++
      "): ".toList ++ complaint
  | .excludesTooDeep defect =>
    "failed to compile exclude patterns: ".toList ++ defect.message
  | .notListable path => about "failed to list" path "not a readable directory".toList
  | .createDirectory path error => about "failed to create directory" path error.message
  | .createTemporary path error => about "failed to create temporary file" path error.message
  | .write path error => about "failed to write" path error.message
  | .replace path error => about "failed to replace" path error.message

def message (e : CommandError) : Text := e.category.heading ++ e.reason

def exitCode (e : CommandError) : Nat := e.category.exitCode

end CommandError

end PromptDoc
