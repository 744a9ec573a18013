/-
# PromptDoc.Tool.Print — printing arguments

`echo` prints its arguments with spaces between them. `printf` prints a format,
again and again as long as that uses up arguments.
-/
import PromptDoc.Tool.Call
import PromptDoc.Tool.Escape

namespace PromptDoc.Tool

set_option autoImplicit false

namespace Echo

/-- Whether an argument holds options of `echo`. -/
def isOption : Text → Bool
  | '-' :: letters => letters ≠ [] && letters.all fun c => c = 'n' || c = 'e' || c = 'E'
  | _ => false

/-- Prints words; escapes are resolved on request, and the line is ended unless
that is not wanted. -/
def print (escapes ended : Bool) (words : List Text) : Bytes :=
  let line := [' '].intercalate words
  let ending : Bytes := if ended then [10] else []
  if escapes then
    match Escape.resolve .afterZero 0 line with
    | (bytes, true) => bytes ++ ending
    | (bytes, false) => bytes
  else Text.encode line ++ ending

def run (arguments : List Text) : ProgramOutput :=
  let options := arguments.takeWhile isOption
  let letters := options.flatten
  let escapes := match letters.reverse.find? fun c => c = 'e' || c = 'E' with
    | some c => c = 'e'
    | none => false
  success (print escapes (!letters.contains 'n') (arguments.drop options.length))

/-- The `echo` of a shell, which always resolves escapes. -/
def shell (arguments : List Text) : ProgramOutput :=
  match arguments with
  | ['-', 'n'] :: words => success (print true false words)
  | words => success (print true true words)

end Echo

namespace Printf

inductive Part where
  /-- Bytes to print. -/
  | bytes (b : Bytes)
  /-- An argument to print: the width, whether it is filled on the right, and how. -/
  | argument (width : Nat) (left : Bool) (how : Char)
  /-- The end of all printing. -/
  | stop

/-- Reads a format; `skip` characters have been read already. -/
def parts : Nat → Text → List Part
  | _, [] => []
  | skip + 1, _ :: cs => parts skip cs
  | 0, c :: cs =>
    if c = '\x5c' then
      match Escape.read .atOnce cs with
      | none => [.stop]
      | some (b, used) => .bytes b :: parts used cs
    else if c = '%' then
      match cs with
      | '%' :: _ => .bytes [37] :: parts 1 cs
      | _ =>
        let left := cs.head? = some '-'
        let afterSign := if left then cs.drop 1 else cs
        let digits := afterSign.takeWhile Char.isDigit
        let width := digits.foldl (fun n d => n * 10 + (d.toNat - 48)) 0
        match afterSign.drop digits.length with
        | how :: _ =>
          .argument width left how :: parts (digits.length + 1 + if left then 1 else 0) cs
        | [] => [.bytes [37]]
    else .bytes (Text.encode [c]) :: parts 0 cs

def fill (width : Nat) (left : Bool) (b : Bytes) : Bytes :=
  let blanks : Bytes := List.replicate (width - b.length) 32
  if left then b ++ blanks else blanks ++ b

/-- How an argument is printed, and whether printing goes on after it. -/
def shown (how : Char) (a : Text) : Bytes × Bool :=
  match how with
  | 'b' => Escape.resolve .afterZero 0 a
  | 'c' => ((Text.encode a).take 1, true)
  | 'd' => (Text.encode (if a = [] then ['0'] else a), true)
  | 'i' => (Text.encode (if a = [] then ['0'] else a), true)
  | _ => (Text.encode a, true)

/-- Prints a format once: the bytes, the arguments left, and whether printing goes
on. -/
def once : List Part → List Text → Bytes × List Text × Bool
  | [], arguments => ([], arguments, true)
  | .bytes b :: ps, arguments =>
    let (rest, left, goesOn) := once ps arguments
    (b ++ rest, left, goesOn)
  | .argument width left how :: ps, arguments =>
    match shown how (arguments.headD []) with
    | (b, false) => (b, [], false)
    | (b, true) =>
      let (rest, remaining, goesOn) := once ps (arguments.drop 1)
      (fill width left b ++ rest, remaining, goesOn)
  | .stop :: _, _ => ([], [], false)

def usesArguments (ps : List Part) : Bool :=
  ps.any fun
    | .argument _ _ _ => true
    | _ => false

/-- Prints a format as long as it uses up arguments, at most `times` times. -/
def again : Nat → List Part → List Text → Bytes
  | 0, _, _ => []
  | times + 1, ps, arguments =>
    let (b, left, goesOn) := once ps arguments
    if goesOn && left ≠ [] && usesArguments ps then b ++ again times ps left else b

def run : List Text → ProgramOutput
  | [] => failure 1 "printf: missing operand\nTry 'printf --help' for more information.\n".toList
  | format :: arguments =>
    let ps := parts 0 format
    let stdout := again (arguments.length + 1) ps arguments
    match arguments with
    | excess :: _ =>
      if usesArguments ps then success stdout
      else
        { exitCode := some 0
          stdout
          stderr := Text.encode ("printf: warning: ignoring excess arguments, starting with '".toList
            ++ excess ++ "'\n".toList) }
    | [] => success stdout

def shell (arguments : List Text) : ProgramOutput := { run arguments with stderr := [] }

end Printf

end PromptDoc.Tool
