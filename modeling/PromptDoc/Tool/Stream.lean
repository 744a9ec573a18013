/-
# PromptDoc.Tool.Stream — editing lines as they pass

`sed` applies the commands of a script to each line of its files: printing (`p`),
leaving out (`d`), ending (`q`), numbering (`=`) and substituting (`s`), for all
lines or for those that addresses choose.
-/
import PromptDoc.Tool.Lines
import PromptDoc.Tool.Pattern

namespace PromptDoc.Tool.Stream

set_option autoImplicit false

/-- Which line is meant. -/
inductive Address where
  | number (n : Nat)
  | last
  | pattern (p : Pattern)
deriving Repr

inductive Action where
  | print
  | leaveOut
  | finish
  | showNumber
  | substitute (p : Pattern) (replacement : Text) (all shown : Bool)
deriving Repr

structure Command where
  first : Option Address := none
  last : Option Address := none
  negated : Bool := false
  action : Action
deriving Repr

/-! ## Reading a script -/

/-- The text up to a mark that no backslash stands before, and what follows it. -/
def upTo? (mark : Char) : Text → Option (Text × Text)
  | [] => none
  | '\x5c' :: c :: rest =>
    (upTo? mark rest).map fun (t, rest) => (if c = mark then c :: t else '\x5c' :: c :: t, rest)
  | c :: rest => if c = mark then some ([], rest) else (upTo? mark rest).map fun (t, rest) => (c :: t, rest)

def address? (style : Pattern.Style) : Text → Option (Option Address × Text)
  | '$' :: rest => some (some .last, rest)
  | '/' :: rest => do
    let (t, rest) ← upTo? '/' rest
    return (some (.pattern (← Pattern.read? style t)), rest)
  | t =>
    let digits := t.takeWhile Char.isDigit
    if digits = [] then some (none, t)
    else some (some (.number (number digits)), t.drop digits.length)

def action? (style : Pattern.Style) : Text → Option (Action × Text)
  | 'p' :: rest => some (.print, rest)
  | 'd' :: rest => some (.leaveOut, rest)
  | 'q' :: rest => some (.finish, rest)
  | '=' :: rest => some (.showNumber, rest)
  | 's' :: mark :: rest => do
    let (pattern, rest) ← upTo? mark rest
    let (replacement, rest) ← upTo? mark rest
    let flags := rest.takeWhile fun c => c = 'g' || c = 'p' || c = 'I' || c = 'i'
    let p ← Pattern.read? style pattern
    let p := if flags.contains 'I' || flags.contains 'i' then p.anyCase else p
    return (.substitute p replacement (flags.contains 'g') (flags.contains 'p'),
      rest.drop flags.length)
  | _ => none

/-- The commands of a script; `fuel` bounds their number. -/
def commands? (style : Pattern.Style) : Nat → Text → Option (List Command)
  | 0, _ => none
  | fuel + 1, t => do
    let t := t.dropWhile fun c => c = ' ' || c = ';' || c = '\n' || c = '\t'
    if t = [] then return []
    let (first, t) ← address? style t
    let (last, t) ← match t with
      | ',' :: t => address? style t
      | t => some (none, t)
    let negated := t.head? = some '!'
    let (action, t) ← action? style (if negated then t.drop 1 else t)
    let t := t.dropWhile fun c => c = ' ' || c = '\t'
    if t ≠ [] && t.head? ≠ some ';' && t.head? ≠ some '\n' then none
    return { first, last, negated, action } :: (← commands? style fuel t)

/-! ## Applying it -/

/-- The text that a replacement stands for. -/
def replaced (found : Bytes) : Text → Bytes
  | '&' :: rest => found ++ replaced found rest
  | '\x5c' :: 'n' :: rest => 10 :: replaced found rest
  | '\x5c' :: c :: rest => Text.encode [c] ++ replaced found rest
  | c :: rest => Text.encode [c] ++ replaced found rest
  | [] => []

/-- A line with the first match replaced, or with all of them. An empty match right
behind another one, which `behind` tells of, does not count. -/
def substituted (p : Pattern) (replacement : Text) (all : Bool) (total : Nat) :
    Nat → Bool → Bytes → Bytes
  | 0, _, s => s
  | fuel + 1, behind, s =>
    match p.find? total s with
    | none => s
    | some (before, found, rest) =>
      let counts := !(behind && before = [] && found = [])
      let front := before ++ if counts then replaced found replacement else []
      if !all then front ++ rest
      else
        match found, rest with
        | [], b :: rest => front ++ b :: substituted p replacement all total fuel false rest
        | [], [] => front
        | _, rest => front ++ substituted p replacement all total fuel true rest

def Address.means (a : Address) (number : Nat) (isLast : Bool) (line : Bytes) : Bool :=
  match a with
  | .number n => n = number
  | .last => isLast
  | .pattern p => p.isIn line

/-- Whether a command is for a line, and whether its range goes on after it; `inside`
says whether the line is in the range already. -/
def Command.chooses (k : Command) (inside : Bool) (number : Nat) (isLast : Bool)
    (line : Bytes) : Bool × Bool :=
  match k.first, k.last with
  | none, _ => (!k.negated, false)
  | some a, none => (a.means number isLast line != k.negated, false)
  | some a, some b =>
    let begins := !inside && a.means number isLast line
    let single := match b with
      | .number n => n ≤ number
      | _ => false
    let ends := if inside then
        match b with
        | .number n => n ≤ number
        | b => b.means number isLast line
      else single
    ((inside || begins) != k.negated, (inside || begins) && !ends)

structure Passing where
  line : Bytes
  written : Bytes := []
  kept : Bool := true
  finished : Bool := false

/-- Applies commands to a line; each comes with whether its range is open. -/
def apply (number : Nat) (isLast : Bool) (p : Passing) :
    List (Command × Bool) → Passing × List (Command × Bool)
  | [] => (p, [])
  | (k, inside) :: ks =>
    let (chosen, goesOn) := k.chooses inside number isLast p.line
    let after : Passing :=
      if !chosen then p
      else
        match k.action with
        | .print => { p with written := p.written ++ p.line ++ [10] }
        | .leaveOut => { p with kept := false }
        | .finish => { p with finished := true }
        | .showNumber => { p with written := p.written ++ line (Text.ofNat number) }
        | .substitute pattern replacement all shown =>
          let edited := substituted pattern replacement all p.line.length (p.line.length + 1) false
            p.line
          let written := if shown && pattern.isIn p.line then p.written ++ edited ++ [10]
            else p.written
          { p with line := edited, written }
    if !after.kept || after.finished then (after, (k, goesOn) :: ks)
    else
      let (result, states) := apply number isLast after ks
      (result, (k, goesOn) :: states)

/-- Applies commands to lines; `quiet` leaves out what no command prints. -/
def pass (quiet : Bool) : Nat → List (Command × Bool) → List Bytes → Bytes
  | _, _, [] => []
  | number, states, l :: ls =>
    let (p, states) := apply number ls.isEmpty { line := chomp l } states
    let shown := p.written ++ (if p.kept && !quiet then p.line ++ [10] else [])
    let shown := if l.getLast? = some 10 then shown else chomp shown
    if p.finished then shown else shown ++ pass quiet (number + 1) states ls

structure Request where
  quiet : Bool := false
  style : Pattern.Style := .basic
  scripts : List Text := []
  files : List Text := []

/-- Reads arguments; the first operand is the script if no option names one. -/
def Request.read (r : Request) : List Text → Request
  | [] =>
    match r.scripts, r.files with
    | [], script :: files => { r with scripts := [script], files }
    | _, _ => r
  | ['-', 'n'] :: rest => { r with quiet := true }.read rest
  | ['-', 'E'] :: rest => { r with style := .extended }.read rest
  | ['-', 'r'] :: rest => { r with style := .extended }.read rest
  | ['-', 'e'] :: script :: rest => { r with scripts := r.scripts ++ [script] }.read rest
  | file :: rest => { r with files := r.files ++ [file] }.read rest

def run (c : Call) : ProgramOutput :=
  let r := ({} : Request).read c.arguments
  let script := ['\n'].intercalate r.scripts
  match commands? r.style (script.length + 2) script with
  | none => failure 1 "sed: -e expression #1, char 0: unknown command\n".toList
  | some ks =>
    let o := eachFile c r.files 2
      (fun file e => match e with
        | .isDirectory => "sed: couldn't edit ".toList ++ file ++ ": not a regular file\n".toList
        | e => "sed: can't read ".toList ++ file ++ ": ".toList ++ e.summary ++ ['\n']) id
    { o with stdout := pass r.quiet 1 (ks.map fun k => (k, false)) (lines o.stdout) }

end PromptDoc.Tool.Stream
