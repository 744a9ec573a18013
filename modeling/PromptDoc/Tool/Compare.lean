/-
# PromptDoc.Tool.Compare — whether and where two files differ

`cmp` compares bytes and `diff` lines. The status is 0 for equal files, 1 for
different ones, and 2 if they cannot be compared.
-/
import PromptDoc.Tool.LineDiff

namespace PromptDoc.Tool

set_option autoImplicit false

namespace Cmp

/-- The numbers of the first byte that differs and of its line, from one on. -/
def firstDifference? : Nat → Nat → Bytes → Bytes → Option (Nat × Nat)
  | place, line, a :: as, b :: bs =>
    if a = b then firstDifference? (place + 1) (if a = 10 then line + 1 else line) as bs
    else some (place, line)
  | _, _, _, _ => none

/-- Whether one file ends where the other goes on, and which does. -/
def shorter? (a b : Bytes) (old new : Text) : Option (Text × Bytes) :=
  if a.length < b.length then some (old, a)
  else if b.length < a.length then some (new, b)
  else none

def run (c : Call) : ProgramOutput :=
  let silent := (letters c.arguments).contains 's'
  let answer (code : Int) (stdout stderr : Text) : ProgramOutput :=
    { exitCode := some code
      stdout := if silent then [] else Text.encode stdout
      stderr := if silent then [] else Text.encode stderr }
  let compare (old new : Text) : ProgramOutput :=
    match c.read old, c.read new with
    | .error e, _ => answer 2 [] ("cmp: ".toList ++ old ++ ": ".toList ++ e.summary ++ ['\n'])
    | _, .error e => answer 2 [] ("cmp: ".toList ++ new ++ ": ".toList ++ e.summary ++ ['\n'])
    | .ok a, .ok b =>
      match firstDifference? 1 1 a b with
      | some (place, line) =>
        answer 1 (old ++ [' '] ++ new ++ " differ: char ".toList ++ Text.ofNat place ++
          ", line ".toList ++ Text.ofNat line ++ ['\n']) []
      | none =>
        match shorter? a b old new with
        | none => answer 0 [] []
        | some (name, []) => answer 1 [] ("cmp: EOF on ".toList ++ name ++ " which is empty\n".toList)
        | some (name, s) =>
          let place := if s.getLast? = some 10 then ", line ".toList else ", in line ".toList
          answer 1 [] ("cmp: EOF on ".toList ++ name ++ " after byte ".toList ++
            Text.ofNat s.length ++ place ++ Text.ofNat (lines s).length ++ ['\n'])
  match operands c.arguments with
  | old :: new :: _ => compare old new
  | [old] => compare old ['-']
  | [] => failure 2 ("cmp: missing operand after 'cmp'\n" ++
      "cmp: Try 'cmp --help' for more information.\n").toList

end Cmp

namespace Difference

structure Change where
  oldBefore : Nat
  newBefore : Nat
  taken : List Bytes
  put : List Bytes

/-- The changes of an edit script; `current` is the one that is being read. -/
def changes (oldBefore newBefore : Nat) (current : Option Change) : List LineEdit → List Change
  | [] => current.toList
  | .keep _ :: rest => current.toList ++ changes (oldBefore + 1) (newBefore + 1) none rest
  | .take l :: rest =>
    let k := current.getD ⟨oldBefore, newBefore, [], []⟩
    changes (oldBefore + 1) newBefore (some { k with taken := k.taken ++ [l] }) rest
  | .put l :: rest =>
    let k := current.getD ⟨oldBefore, newBefore, [], []⟩
    changes oldBefore (newBefore + 1) (some { k with put := k.put ++ [l] }) rest

def range (before count : Nat) : Text :=
  if count = 0 then Text.ofNat before
  else if count = 1 then Text.ofNat (before + 1)
  else Text.ofNat (before + 1) ++ [','] ++ Text.ofNat (before + count)

def marked (mark : UInt8) (l : Bytes) : Bytes :=
  if l.getLast? = some 10 then mark :: 32 :: l
  else mark :: 32 :: l ++ Text.encode "\n\\ No newline at end of file\n".toList

def Change.render (k : Change) : Bytes :=
  let letter := if k.taken = [] then 'a' else if k.put = [] then 'd' else 'c'
  line (range k.oldBefore k.taken.length ++ [letter] ++ range k.newBefore k.put.length) ++
    k.taken.flatMap (marked 60) ++
    (if letter = 'c' then line "---".toList else []) ++ k.put.flatMap (marked 62)

/-- Two files as they are compared: a directory stands for the file of the other's
name in it. -/
def inDirectory (c : Call) (path other : Text) : Text :=
  if c.disk.isDirectory path && !c.disk.isDirectory other then
    Path.join path ((Path.fileName? other).getD [])
  else path

def run (c : Call) : ProgramOutput :=
  let has (names : List String) : Bool := names.any fun n => c.arguments.contains n.toList
  let again := "diff: Try 'diff --help' for more information.\n".toList
  match operands c.arguments with
  | [] => failure 2 ("diff: missing operand after 'diff'\n".toList ++ again)
  | [old] => failure 2 ("diff: missing operand after '".toList ++ old ++ "'\n".toList ++ again)
  | [old, new] =>
    let old' := inDirectory c old new
    let new' := inDirectory c new old
    match c.read old', c.read new' with
    | .ok a, .ok b =>
      if a = b then
        success (if has ["-s", "--report-identical-files"] then
          line ("Files ".toList ++ old' ++ " and ".toList ++ new' ++ " are identical".toList) else [])
      else
        let both := old' ++ " and ".toList ++ new' ++ " differ".toList
        if has ["-q", "--brief"] then
          { exitCode := some 1, stdout := line ("Files ".toList ++ both) }
        else if LineDiff.isBinary a || LineDiff.isBinary b then
          { exitCode := some 2, stdout := line ("Binary files ".toList ++ both) }
        else
          { exitCode := some 1
            stdout := (changes 0 0 none (LineDiff.edits ⟨.unmatched, false, true⟩ a b)).flatMap (·.render) }
    | a, b =>
      let complaint (path : Text) : Except FileError Bytes → Text
        | .ok _ => []
        | .error e => "diff: ".toList ++ path ++ ": ".toList ++ e.summary ++ ['\n']
      failure 2 (complaint old' a ++ complaint new' b)
  | _ :: _ :: extra :: _ => failure 2 ("diff: extra operand '".toList ++ extra ++ "'\n".toList ++ again)

end Difference

end PromptDoc.Tool
