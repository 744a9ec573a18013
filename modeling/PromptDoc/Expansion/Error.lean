/-
# PromptDoc.Expansion.Error — why one directive could not be expanded

These failures never end an expansion: the directive is replaced by a
placeholder and the failure is reported once.
-/
import PromptDoc.Program.Basic

namespace PromptDoc

set_option autoImplicit false

/-- Why there is no diff. -/
inductive DiffFailure where
  /-- The ref could be taken for an option of the command. -/
  | optionLikeRef (ref : Text)
  /-- The program could not be started. -/
  | notStarted (program : Text) (error : LaunchError)
  /-- The program ended with a status that means failure. -/
  | badStatus (code : Int) (complaint : Text)
  /-- The program was ended by a signal. -/
  | killed
  /-- The account that a diff runner gives of itself. -/
  | other (account : Text)
deriving DecidableEq, Repr

namespace DiffFailure

def message : DiffFailure → Text
  | .optionLikeRef ref =>
    "invalid ref '".toList ++ ref ++ "': refs must not start with '-'".toList
  | .notStarted program error =>
    "failed to execute ".toList ++ program ++ ": ".toList ++ error.message
  | .badStatus code complaint =>
    "exit code ".toList ++ Text.ofInt code ++ ": ".toList ++ Text.trim complaint
  | .killed => "diff process terminated by signal".toList
  | .other account => account

end DiffFailure

/-- Why a directive could not be expanded. -/
inductive ExpandError where
  /-- There is no workspace to read from. -/
  | noWorkspace
  /-- There is no such file. -/
  | fileNotFound (path : Text)
  /-- The file is there but cannot be read. -/
  | fileUnreadable (path reason : Text)
  /-- There is no diff. -/
  | noDiff (failure : DiffFailure)
deriving DecidableEq, Repr

namespace ExpandError

def message : ExpandError → Text
  | .noWorkspace => "no workspace folder found".toList
  | .fileNotFound path => "file not found: ".toList ++ path
  | .fileUnreadable path reason =>
    "failed to read ".toList ++ path ++ ": ".toList ++ reason
  | .noDiff failure => "diff failed: ".toList ++ failure.message

end ExpandError

end PromptDoc
