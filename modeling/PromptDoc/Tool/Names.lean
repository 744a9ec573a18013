/-
# PromptDoc.Tool.Names — questions about paths

`ls` lists names, `basename` and `dirname` take a path apart, and `test` asks about
files and compares words.
-/
import PromptDoc.Tool.Call

namespace PromptDoc.Tool

set_option autoImplicit false

namespace Names

/-- The names in a directory that a listing shows, in order. -/
def entries (options : Text) (t : FileTree) : List Text :=
  match t with
  | .directory entries =>
    let names := Text.sort (entries.map (·.1))
    if options.contains 'a' then ['.'] :: ['.', '.'] :: names
    else if options.contains 'A' then names
    else names.filter fun n => n.head? ≠ some '.'
  | _ => []

/-- The program `ls`: files first, then directories, which are headed by their names
if there is more than one operand. -/
def list (c : Call) : ProgramOutput :=
  let options := letters c.arguments
  let paths := Text.sort (if operands c.arguments = [] then [['.']] else operands c.arguments)
  let found := paths.map fun p => (p, c.disk.node p)
  let files := found.filterMap fun (p, t) =>
    match t with
    | .ok t => if t.isDirectory && !options.contains 'd' then none else some p
    | .error _ => none
  let directories := found.filterMap fun (p, t) =>
    match t with
    | .ok t => if t.isDirectory && !options.contains 'd' then some (p, t) else none
    | .error _ => none
  let part (p : Text × FileTree) : Text :=
    (if paths.length > 1 then p.1 ++ [':', '\n'] else []) ++
      (entries options p.2).flatMap (· ++ ['\n'])
  let shown := (if files = [] then [] else [files.flatMap (· ++ ['\n'])]) ++ directories.map part
  { exitCode := some (if found.all (·.2.toBool) then 0 else 2)
    stdout := Text.encode (['\n'].intercalate shown)
    stderr := Text.encode (found.flatMap fun (p, t) =>
      match t with
      | .ok _ => []
      | .error e => "ls: cannot access '".toList ++ p ++ "': ".toList ++ e.summary ++ ['\n']) }

def lastName (path : Text) : Text :=
  match Path.stripSlashes path with
  | ['/'] => ['/']
  | stripped => (stripped.splitOn '/').getLastD []

def base (c : Call) : ProgramOutput :=
  match c.arguments with
  | [path] => success (line (lastName path))
  | [path, ending] =>
    let name := lastName path
    success (line (if name ≠ ending && ending.isSuffixOf name then
      name.take (name.length - ending.length) else name))
  | [] => failure 1 "basename: missing operand\nTry 'basename --help' for more information.\n".toList
  | _ :: _ :: extra :: _ =>
    failure 1 ("basename: extra operand '".toList ++ extra ++
      "'\nTry 'basename --help' for more information.\n".toList)

def holder (path : Text) : Text :=
  let stripped := Path.stripSlashes path
  if stripped = ['/'] then ['/']
  else
    match (stripped.reverse.dropWhile (· ≠ '/')) with
    | [] => ['.']
    | slashes => Path.stripSlashes slashes.reverse

def directory (c : Call) : ProgramOutput :=
  if c.arguments = [] then
    failure 1 "dirname: missing operand\nTry 'dirname --help' for more information.\n".toList
  else success (c.arguments.flatMap fun path => line (holder path))

end Names

namespace Test

def int? (t : Text) : Option Int :=
  match t with
  | '-' :: digits => (number? digits).map fun n => -(Int.ofNat n)
  | digits => (number? digits).map Int.ofNat

def unary? (d : Disk) (question word : Text) : Option Bool :=
  let isLink : Bool := match d.locate false word with
    | .ok (.existing location) =>
      match d.tree.get? location with
      | some (.link _) => true
      | _ => false
    | _ => false
  match String.ofList question with
  | "-n" => some (word ≠ [])
  | "-z" => some (word = [])
  | "-e" | "-r" | "-w" => some (d.has word)
  | "-f" => some (d.isFile word)
  | "-d" | "-x" => some (d.isDirectory word)
  | "-s" => some (d.isDirectory word || ((d.read word).toOption.getD []) ≠ [])
  | "-L" | "-h" => some isLink
  | _ => none

def binary? (a comparison b : Text) : Option Bool :=
  let compare (test : Int → Int → Bool) : Option Bool := do return test (← int? a) (← int? b)
  match String.ofList comparison with
  | "=" | "==" => some (a = b)
  | "!=" => some (a ≠ b)
  | "-eq" => compare (· == ·)
  | "-ne" => compare (· != ·)
  | "-lt" => compare (fun x y => decide (x < y))
  | "-le" => compare (fun x y => decide (x ≤ y))
  | "-gt" => compare (fun x y => decide (y < x))
  | "-ge" => compare (fun x y => decide (y ≤ x))
  | _ => none

/-- The answer to a question in words. -/
def answer? (d : Disk) : List Text → Option Bool
  | [] => some false
  | [word] => some (word ≠ [])
  | [a, b] => if a = ['!'] then some (b = []) else unary? d a b
  | [a, comparison, b] =>
    (binary? a comparison b).orElse fun _ =>
      if a = ['!'] then (unary? d comparison b).map (!·) else none
  | ['!'] :: rest => (answer? d rest).map (!·)
  | a :: b :: ['-', 'a'] :: rest => do
    let first ← unary? d a b
    return first && (← answer? d rest)
  | a :: b :: c :: join :: rest => do
    let first ← binary? a b c
    let second ← answer? d rest
    if join = "-a".toList then return first && second
    else if join = "-o".toList then return first || second
    else none

/-- What is wrong with a question. -/
inductive Defect where
  | notClosed
  | notNumber (word : Text)
  | other
deriving DecidableEq, Repr

def ask (bracket : Bool) (c : Call) : Except Defect Bool :=
  if bracket && c.arguments.getLast? ≠ some [']'] then .error .notClosed
  else
    let words := if bracket then c.arguments.dropLast else c.arguments
    match answer? c.disk words, words with
    | some b, _ => .ok b
    | none, [a, _, b] =>
      match [a, b].find? fun t => (int? t).isNone with
      | some word => .error (.notNumber word)
      | none => .error .other
    | none, _ => .error .other

def run (bracket : Bool) (c : Call) : ProgramOutput :=
  let name := if bracket then "[".toList else "test".toList
  match ask bracket c with
  | .ok true => success []
  | .ok false => { exitCode := some 1 }
  | .error .notClosed => failure 2 (name ++ ": missing ']'\n".toList)
  | .error (.notNumber word) => failure 2 (name ++ ": invalid integer '".toList ++ word ++ "'\n".toList)
  | .error .other => failure 2 (name ++ ": syntax error\n".toList)

end Test

end PromptDoc.Tool
