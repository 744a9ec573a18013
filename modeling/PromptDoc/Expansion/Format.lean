/-
# PromptDoc.Expansion.Format — the written form of expanded directives

A file is its path followed by its contents in a code fence, a diff is fenced as
`diff`, and what could not be had is a placeholder in brackets. The parts of a
prompt are joined by one blank line; no run of line feeds is longer than two
(`collapse`).
-/
import PromptDoc.Text.Basic

namespace PromptDoc.Format

set_option autoImplicit false

def noChanges : Text := "[No changes]".toList

def diffFailed : Text := "[Failed to get diff]".toList

/-- Stands for a file that could not be read. -/
def readFailed (path : Text) : Text := "[Failed to read: ".toList ++ path ++ "]".toList

def fence : Text := "```".toList

/-- A file: its path, then its contents fenced under its language. -/
def fileBlock (path language content : Text) : Text :=
  path ++ ['\n'] ++ fence ++ language ++ ['\n'] ++ Text.trim content ++ ['\n'] ++ fence

def diffBlock (output : Text) : Text :=
  match Text.trim output with
  | [] => noChanges
  | output => fence ++ "diff\n".toList ++ output ++ ['\n'] ++ fence

/-- Writes a text after `run` line feeds, dropping the line feeds past the second
of a run. -/
def collapseAfter : Nat → Text → Text
  | _, [] => []
  | run, c :: cs =>
    if c = '\n' then
      if run < 2 then '\n' :: collapseAfter (run + 1) cs else collapseAfter run cs
    else c :: collapseAfter 0 cs

/-- Shortens every run of three or more line feeds to two. -/
def collapse (t : Text) : Text := collapseAfter 0 t

/-- Joins the parts that are not empty by one blank line. -/
def joinParts (parts : List Text) : Text :=
  collapse ("\n\n".toList.intercalate (parts.filter (· ≠ [])))

end PromptDoc.Format
