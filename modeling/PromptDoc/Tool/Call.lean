/-
# PromptDoc.Tool.Call — what a program is started with

A program sees a disk, what stands on its standard input, and its arguments. It
says how it ends and what it writes; it does not change the disk.
-/
import PromptDoc.FileTree.Disk
import PromptDoc.Program.Basic

namespace PromptDoc

set_option autoImplicit false

/-- An error of the file system without its number. -/
def FileError.summary (e : FileError) : Text :=
  match Text.cutAt? " (os error".toList e.message with
  | some (before, _) => before
  | none => e.message

namespace Tool

/-- What a program is started with. -/
structure Call where
  disk : Disk
  stdin : Bytes := []
  arguments : List Text

def success (stdout : Bytes) : ProgramOutput := { exitCode := some 0, stdout }

def failure (code : Int) (complaint : Text) : ProgramOutput :=
  { exitCode := some code, stderr := Text.encode complaint }

def line (t : Text) : Bytes := Text.encode (t ++ ['\n'])

namespace Call

/-- The contents of the file at a path; a hyphen stands for standard input. -/
def read (c : Call) (path : Text) : Except FileError Bytes :=
  if path = ['-'] then .ok c.stdin else c.disk.read path

/-- The paths among the operands, or standard input if there is none. -/
def orInput (operands : List Text) : List Text := if operands = [] then [['-']] else operands

end Call

def number (digits : Text) : Nat := digits.foldl (fun n c => n * 10 + (c.toNat - 48)) 0

def number? (t : Text) : Option Nat := if t ≠ [] && t.all Char.isDigit then some (number t) else none

/-- The letters of options such as `-nv`. -/
def letters (arguments : List Text) : Text :=
  (arguments.filter fun a => a.head? = some '-' && a.length > 1).flatMap (·.drop 1)

def operands (arguments : List Text) : List Text :=
  arguments.filter fun a => !(a.head? = some '-' && a.length > 1)

/-- The lines of contents, each with the line feed that ends it. -/
def lines : Bytes → List Bytes
  | [] => []
  | b :: contents =>
    if b = 10 then [10] :: lines contents
    else
      match lines contents with
      | [] => [[b]]
      | line :: rest => (b :: line) :: rest

def chomp (line : Bytes) : Bytes := if line.getLast? = some 10 then line.dropLast else line

def ended (line : Bytes) : Bytes := chomp line ++ [10]

end Tool

end PromptDoc
