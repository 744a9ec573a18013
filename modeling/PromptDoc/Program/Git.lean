/-
# PromptDoc.Program.Git — asking git

Git answers with what it writes to standard output, without the blanks around it.
A status other than 0 is a failure, explained by what it writes to standard error
or, if that is nothing, to standard output.
-/
import PromptDoc.CommandError

namespace PromptDoc

set_option autoImplicit false

/-- What git wrote, without the blanks around it. -/
structure GitAnswer where
  stdout : Text
  stderr : Text
deriving DecidableEq, Repr

namespace Programs

def git (programs : Programs) (directory : Text) (arguments : List Text) :
    Except CommandError GitAnswer :=
  let operation := arguments.headD []
  match programs { directory, program := "git".toList, arguments } with
  | .error error => .error (.gitNotStarted operation error)
  | .ok output =>
    let stdout := (Text.decodeLossy output.stdout).trim
    let stderr := (Text.decodeLossy output.stderr).trim
    if output.exitCode = some 0 then .ok { stdout, stderr }
    else
      .error (.gitFailed operation (output.exitCode.getD (-1))
        (if stderr = [] then stdout else stderr))

def repositoryRoot (programs : Programs) (directory : Text) : Except CommandError Text :=
  (programs.git directory ["rev-parse".toList, "--show-toplevel".toList]).map (·.stdout)

end Programs

end PromptDoc
