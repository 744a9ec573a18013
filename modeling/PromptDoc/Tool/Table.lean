/-
# PromptDoc.Tool.Table — the programs of a small system

A system without other programs than the few of this library. A program is found
by its name, or below `/bin` and `/usr/bin`; it is started in a directory that has
to exist.
-/
import PromptDoc.Tool.Cat
import PromptDoc.Tool.Compare
import PromptDoc.Tool.Ends
import PromptDoc.Tool.Git
import PromptDoc.Tool.Search
import PromptDoc.Tool.Shell
import PromptDoc.Tool.Stream

namespace PromptDoc

set_option autoImplicit false

namespace Tool

def process : Nat := 4711

/-- The name of a program that a path below the system's directories leads to. -/
def systemName? (path : Text) : Option Text :=
  ("/usr/bin/".toList.isPrefixOf? path).orElse fun _ => "/bin/".toList.isPrefixOf? path

def simple? (name : Text) (c : Call) : Option ProgramOutput :=
  match String.ofList ((systemName? name).getD name) with
  | "echo" => some (Echo.run c.arguments)
  | "printf" => some (Printf.run c.arguments)
  | "true" | "sleep" => some (success [])
  | "false" => some { exitCode := some 1 }
  | "cat" => some (Cat.run c)
  | "tee" => some (success c.stdin)
  | "pwd" => some (success (line (Disk.pathOf c.disk.workingDirectory)))
  | "git" => some (Git.run c.disk c.arguments)
  | "diff" => some (Difference.run c)
  | "cmp" => some (Cmp.run c)
  | "head" => some (Ends.run .first c)
  | "tail" => some (Ends.run .last c)
  | "grep" => some (Search.run c)
  | "wc" => some (Count.run c)
  | "sort" => some (Sort.run c)
  | "uniq" => some (Uniq.run c)
  | "tac" => some (Tac.run c)
  | "rev" => some (Rev.run c)
  | "nl" => some (Nl.run c)
  | "cut" => some (Cut.run c)
  | "tr" => some (Translate.run c)
  | "sed" => some (Stream.run c)
  | "sha1sum" => some (Digest.run c)
  | "seq" => some (Seq.run c)
  | "ls" => some (Names.list c)
  | "basename" => some (Names.base c)
  | "dirname" => some (Names.directory c)
  | "test" => some (Test.run false c)
  | "[" => some (Test.run true c)
  | _ => none

def program? (name : Text) (c : Call) : Option ProgramOutput :=
  let run (text : Text) (arguments : List Text) : ProgramOutput :=
    Shell.script simple? process c.disk c.stdin text arguments
  match String.ofList name, c.arguments with
  | "sh", ['-', 'c'] :: script :: rest | "dash", ['-', 'c'] :: script :: rest
  | "bash", ['-', 'c'] :: script :: rest => some (run script (if rest = [] then [name] else rest))
  | "sh", path :: rest =>
    some
      (match c.disk.read path with
      | .ok text => run (Text.decodeLossy text) (path :: rest)
      | .error _ =>
        failure 2 ("sh: 0: cannot open ".toList ++ path ++ ": No such file\n".toList))
  | "sh", [] => some (run (Text.decodeLossy c.stdin) [name])
  | "env", command :: arguments => simple? command { c with arguments }
  | _, _ => simple? name c

/-- Why a name leads to no program. One without a slash is looked for in the
system's directories, where the dots name directories. -/
def refusal (d : Disk) (name : Text) : FileError :=
  if name.contains '/' then
    match d.node name with
    | .ok _ => .permissionDenied
    | .error e => e
  else if name = ['.'] || name = ['.', '.'] then .permissionDenied
  else .notFound

end Tool

def Programs.small (d : Disk) : Programs := fun l =>
  let texts := l.directory :: l.program :: l.arguments
  if texts.any (·.contains '\x00') then .error .nulInArgument
  else
    match d.find l.directory with
    | .error e => .error (.refused e)
    | .ok location =>
      if (d.tree.get? location).any (·.isDirectory) then
        let here := { d with workingDirectory := location }
        let name := (Tool.systemName? l.program).getD l.program
        match Tool.program? name { disk := here, arguments := l.arguments } with
        | some output => .ok output
        | none => .error (.refused (Tool.refusal here l.program))
      else .error (.refused .notDirectory)

end PromptDoc
