/-
# PromptDoc.Tool.Ends — the first and the last parts of files

`head` prints what files begin with and `tail` what they end with, counted in lines
or in bytes. Several files are told apart by headings.
-/
import PromptDoc.Tool.Call

namespace PromptDoc.Tool.Ends

set_option autoImplicit false

/-- Which end of a file is meant. -/
inductive Side where
  | first
  | last
deriving DecidableEq, Repr

namespace Side

def name : Side → Text
  | .first => "head".toList
  | .last => "tail".toList

/-- The parts that a count with its sign stands for: `-` with the first parts leaves
so many out, and `+` with the last parts begins at a number. -/
def select (side : Side) (sign : Option Char) (n : Nat) (parts : List Bytes) : List Bytes :=
  match side, sign with
  | .first, some '-' => parts.take (parts.length - n)
  | .first, _ => parts.take n
  | .last, some '+' => parts.drop (n - 1)
  | .last, _ => parts.drop (parts.length - n)

end Side

structure Request where
  bytes : Bool := false
  sign : Option Char := none
  count : Nat := 10
  files : List Text := []

def Request.withCount (r : Request) (bytes : Bool) (count : Text) : Option Request :=
  let (sign, digits) := match count with
    | '-' :: digits => (some '-', digits)
    | '+' :: digits => (some '+', digits)
    | digits => (none, digits)
  (number? digits).map fun n => { r with bytes, sign, count := n }

def Request.read (r : Request) : List Text → Except Text Request
  | [] => .ok r
  | ['-', 'n'] :: count :: rest => go false count rest
  | ['-', 'c'] :: count :: rest => go true count rest
  | ('-' :: 'n' :: count) :: rest => go false count rest
  | ('-' :: 'c' :: count) :: rest => go true count rest
  | ('-' :: d :: ds) :: rest =>
    match "-lines=".toList.isPrefixOf? (d :: ds), "-bytes=".toList.isPrefixOf? (d :: ds) with
    | some count, _ => go false count rest
    | _, some count => go true count rest
    | none, none => if d.isDigit then go false (d :: ds) rest else r.read rest
  | file :: rest => { r with files := r.files ++ [file] }.read rest
where
  /-- Goes on after a count. -/
  go (bytes : Bool) (count : Text) (rest : List Text) : Except Text Request :=
    match r.withCount bytes count with
    | some r => r.read rest
    | none => .error count

def Request.part (r : Request) (side : Side) (contents : Bytes) : Bytes :=
  let parts := if r.bytes then contents.map (fun b => [b]) else lines contents
  (side.select r.sign r.count parts).flatten

def heading (first : Bool) (file : Text) : Bytes :=
  Text.encode ((if first then [] else ['\n']) ++ "==> ".toList ++
    (if file = ['-'] then "standard input".toList else file) ++ " <==\n".toList)

def Request.print (r : Request) (side : Side) (c : Call) (first : Bool) :
    List Text → ProgramOutput
  | [] => success []
  | file :: files =>
    let title := if r.files.length > 1 then heading first file else []
    match c.read file with
    | .ok contents =>
      let rest := r.print side c false files
      { rest with stdout := title ++ r.part side contents ++ rest.stdout }
    | .error e =>
      let directory := e = FileError.isDirectory
      let rest := r.print side c (first && !directory) files
      let attempt := if directory then ": error reading '".toList else ": cannot open '".toList
      let reason := if directory then "': ".toList else "' for reading: ".toList
      { exitCode := some 1
        stdout := (if directory then title else []) ++ rest.stdout
        stderr := Text.encode (side.name ++ attempt ++ file ++ reason ++ e.summary ++ ['\n']) ++
          rest.stderr }

def run (side : Side) (c : Call) : ProgramOutput :=
  match ({} : Request).read c.arguments with
  | .error count =>
    failure 1 (side.name ++ ": invalid number of lines: '".toList ++ count ++ "'\n".toList)
  | .ok r =>
    let r := { r with files := Call.orInput r.files }
    r.print side c true r.files

end PromptDoc.Tool.Ends
