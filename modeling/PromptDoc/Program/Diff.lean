/-
# PromptDoc.Program.Diff — having a program make a diff

A diff command is run in the workspace root with one more argument, the ref. The
ref comes from a document, so one that could be taken for an option is refused
before anything is started.
-/
import PromptDoc.Config.Basic
import PromptDoc.Expansion.Expand
import PromptDoc.Program.Basic

namespace PromptDoc

set_option autoImplicit false

namespace Command

/-- The command for diffs when none is given. -/
def gitDiff : Command := ⟨"git".toList, ["diff".toList]⟩

/-- The command of words; of none, the one that stands for no words. -/
def ofWords : List Text → Command
  | [] => gitDiff
  | program :: arguments => { program, arguments }

def defaultRef : Text := "HEAD".toList

/-- The launch that makes a diff against a ref. -/
def launch (c : Command) (root ref : Text) : Launch where
  directory := root
  program := c.program
  arguments := c.arguments ++ [ref]

/-- What is launched for a diff: the program, with the ref that is meant, unless that
could be taken for an option. -/
def launching (c : Command) (root : Text) (branch : Option Text) :
    Launching (Except ExpandError DiffOutput) :=
  let ref := branch.getD defaultRef
  if ref.head? = some '-' then .done (.error (.noDiff (.optionLikeRef ref)))
  else
    .launch (c.launch root ref) fun
      | .error error => .done (.error (.noDiff (.notStarted c.program error)))
      | .ok output => .done <| .ok
          { exitCode := output.exitCode
            stdout := Text.decodeLossy output.stdout
            stderr := Text.decodeLossy output.stderr }

/-- How the diff program ends for a branch. -/
def diff (c : Command) (programs : Programs) (root : Text) (branch : Option Text) :
    Except ExpandError DiffOutput :=
  (c.launching root branch).run programs

end Command

end PromptDoc
