/-
# PromptDoc.CommandLine.Usage — answers that end a command line early

Help and version are asked for and are no failures; everything else says that the
arguments cannot be used.
-/
namespace PromptDoc

set_option autoImplicit false

/-- Why arguments lead to no command. -/
inductive Usage where
  /-- Help is asked for. -/
  | help
  /-- The version is asked for. -/
  | version
  /-- There are no arguments. -/
  | nothing
  /-- A command needs an operand that is not there. -/
  | missingOperand
  /-- There are options but no command. -/
  | missingCommand
  /-- An option or operand that is not known here. -/
  | unknownArgument
  /-- A command that is not known. -/
  | unknownCommand
  /-- A value is missing, or an empty path. -/
  | badValue
  /-- An option is given twice. -/
  | repeatedOption
  /-- A switch is given a value. -/
  | unneededValue
deriving DecidableEq, Repr

def Usage.exitCode : Usage → Nat
  | .help | .version => 0
  | _ => 2

end PromptDoc
