/-
# PromptDoc.Tool.ShellScript — shell scripts as data

A script is cut into words, operators and redirections (`Lexeme`), which are then
put together to commands (`Script`). A word consists of pieces: text, values of
parameters, sums, and the output of other scripts, each of which may be quoted.
What is not closed, or stands where it cannot, is a `SyntaxError`.
-/
import PromptDoc.Text.Basic

namespace PromptDoc.Tool

set_option autoImplicit false

/-- A piece of a word. What is not quoted is split into words where it holds blanks. -/
inductive Piece where
  | text (quoted : Bool) (t : Text)
  /-- The value of a parameter, by what stands behind the dollar sign. -/
  | value (quoted : Bool) (parameter : Text)
  /-- The value of a sum. -/
  | sum (quoted : Bool) (terms : Text)
  /-- What a script writes. -/
  | output (quoted : Bool) (source : Text)
deriving DecidableEq, Repr

abbrev Word := List Piece

/-- Where a stream goes to or comes from. -/
inductive Redirection where
  /-- To a file, behind its contents or in place of them. -/
  | toFile (stream : Nat) (behind : Bool) (file : Word)
  /-- To where another stream goes. -/
  | toStream (stream : Nat) (other : Word)
  | fromFile (file : Word)
deriving DecidableEq, Repr

inductive Script where
  | skip
  /-- A command in a line of the source: what is assigned, its words, its streams. -/
  | simple (line : Nat) (assignments : List (Text × Word)) (words : List Word)
      (streams : List Redirection)
  | pipe (first second : Script)
  | sequence (first second : Script)
  /-- The second command runs if the first succeeds, or if it fails. -/
  | onStatus (success : Bool) (first second : Script)
  | negate (inner : Script)
  | branch (test yes no : Script)
  /-- For each of the words; for each argument if there are none. -/
  | each (name : Text) (words : Option (List Word)) (body : Script)
  /-- As long as the test succeeds, or fails. -/
  | loop (success : Bool) (test body : Script)
  /-- The first branch with a pattern that a word matches. -/
  | choose (word : Word) (patterns : List Word) (yes no : Script)
  | function (name : Text) (body : Script)
  /-- A group; a group of its own leaves nothing behind. -/
  | group (own : Bool) (body : Script) (streams : List Redirection)
deriving Repr

/-- Why a text is no script. -/
inductive SyntaxError where
  | unterminatedQuote
  /-- A word or operator where it cannot stand, and what has to stand there. -/
  | unexpected (line : Nat) (found : Text) (expected : Option Text)
deriving DecidableEq, Repr

/-- What a script is made of. -/
inductive Lexeme where
  | word (line : Nat) (w : Word)
  | operator (line : Nat) (o : Text)
  /-- A stream and the sign behind it. -/
  | redirect (stream : Nat) (sign : Text)
deriving DecidableEq, Repr

/-! ## Cutting a text -/

namespace ShellScript

/-- How many characters stand before the parenthesis that closes, and are not in
quotes; `depth` parentheses are open. -/
def closingAt? : Nat → Option Char → Text → Option Nat
  | _, _, [] => none
  | depth, some q, c :: cs =>
    (closingAt? depth (if c = q then none else some q) cs).map (· + 1)
  | depth, none, c :: cs =>
    if c = '\x27' || c = '\x22' then (closingAt? depth (some c) cs).map (· + 1)
    else if c = '(' then (closingAt? (depth + 1) none cs).map (· + 1)
    else if c = ')' then
      match depth with
      | 0 => some 0
      | depth + 1 => (closingAt? depth none cs).map (· + 1)
    else (closingAt? depth none cs).map (· + 1)

def isNameChar (c : Char) : Bool := c.isAlphanum || c = '_'

/-- The piece that a dollar sign begins, and how many characters behind the sign
belong to it. -/
def dollar? (quoted : Bool) (t : Text) : Option (Piece × Nat) :=
  match t with
  | '(' :: '(' :: rest =>
    match Text.cutAt? "))".toList rest with
    | some (terms, _) => some (.sum quoted terms, terms.length + 4)
    | none => none
  | '(' :: rest =>
    (closingAt? 0 none rest).map fun n => (.output quoted (rest.take n), n + 2)
  | '\x7b' :: rest =>
    let name := rest.takeWhile (· ≠ '\x7d')
    if name.length < rest.length then some (.value quoted name, name.length + 2) else none
  | c :: rest =>
    if c.isAlpha || c = '_' then
      let name := c :: rest.takeWhile isNameChar
      some (.value quoted name, name.length)
    else if c.isDigit || "?#@*$!-".toList.contains c then some (.value quoted [c], 1)
    else none
  | [] => none

inductive Mode where
  | bare
  | single
  | double
  | comment
deriving DecidableEq, Repr

structure Lexer where
  mode : Mode := .bare
  line : Nat := 1
  /-- The word that is being read; none between words. -/
  word : Option Word := none
  lexemes : List Lexeme := []

namespace Lexer

def flush (l : Lexer) : Lexer :=
  match l.word with
  | some w => { l with word := none, lexemes := l.lexemes ++ [.word l.line w] }
  | none => l

def push (l : Lexer) (p : Piece) : Lexer :=
  let pieces := l.word.getD []
  match pieces.getLast?, p with
  | some (.text q t), .text q' t' =>
    if q = q' then { l with word := some (pieces.dropLast ++ [.text q (t ++ t')]) }
    else { l with word := some (pieces ++ [p]) }
  | _, _ => { l with word := some (pieces ++ [p]) }

def add (l : Lexer) (x : Lexeme) : Lexer :=
  let l := l.flush
  { l with lexemes := l.lexemes ++ [x] }

/-- Adds a sign of redirection; a digit in front of it names the stream. -/
def redirect (l : Lexer) (sign : Text) : Lexer :=
  let standard := if sign = ['<'] then 0 else 1
  match l.word with
  | some [.text false [d]] =>
    if d.isDigit then { l with word := none }.add (.redirect (d.toNat - 48) sign)
    else l.add (.redirect standard sign)
  | _ => l.add (.redirect standard sign)

def operator? (t : Text) : Option Text :=
  ["&&", "||", ";;", ";", "&", "|", "(", ")", "\n"].map String.toList |>.find?
    fun o => o.isPrefixOf t

def sign? (t : Text) : Option Text :=
  [">>", ">&", ">|", ">", "<"].map String.toList |>.find? fun o => o.isPrefixOf t

/-- Cuts a text; `skip` characters of it have been read already. None if a quote is
not closed. -/
def read (l : Lexer) : Nat → Text → Option (List Lexeme)
  | _, [] => if l.mode = .single || l.mode = .double then none else some l.flush.lexemes
  | skip + 1, _ :: cs => l.read skip cs
  | 0, c :: cs =>
    let next := if c = '\n' then { l with line := l.line + 1 } else l
    match l.mode with
    | .comment =>
      if c = '\n' then
        { l.add (.operator l.line ['\n']) with mode := .bare, line := next.line }.read 0 cs
      else l.read 0 cs
    | .single =>
      if c = '\x27' then { l with mode := .bare }.read 0 cs
      else (next.push (.text true [c])).read 0 cs
    | .double =>
      if c = '\x22' then { l with mode := .bare }.read 0 cs
      else if c = '\x5c' then
        match cs with
        | '\n' :: _ => l.read 1 cs
        | e :: _ =>
          if "$\x60\x22\x5c".toList.contains e then (l.push (.text true [e])).read 1 cs
          else (l.push (.text true [c])).read 0 cs
        | [] => (l.push (.text true [c])).read 0 cs
      else if c = '\x60' then
        let source := cs.takeWhile (· ≠ '\x60')
        (l.push (.output true source)).read (source.length + 1) cs
      else if c = '$' then
        match dollar? true cs with
        | some (p, used) => (l.push p).read used cs
        | none => (l.push (.text true [c])).read 0 cs
      else (next.push (.text true [c])).read 0 cs
    | .bare =>
      if c = '\x27' then ({ l with mode := .single }.push (.text true [])).read 0 cs
      else if c = '\x22' then ({ l with mode := .double }.push (.text true [])).read 0 cs
      else if c = '\x5c' then
        match cs with
        | '\n' :: _ => { l with line := l.line + 1 }.read 1 cs
        | e :: _ => (l.push (.text true [e])).read 1 cs
        | [] => (l.push (.text true [c])).read 0 cs
      else if c = '\x60' then
        let source := cs.takeWhile (· ≠ '\x60')
        (l.push (.output false source)).read (source.length + 1) cs
      else if c = '$' then
        match dollar? false cs with
        | some (p, used) => (l.push p).read used cs
        | none => (l.push (.text false [c])).read 0 cs
      else if c = '#' && l.word.isNone then { l with mode := .comment }.read 0 cs
      else if c = ' ' || c = '\t' then l.flush.read 0 cs
      else
        match sign? (c :: cs) with
        | some sign => (l.redirect sign).read (sign.length - 1) cs
        | none =>
          match operator? (c :: cs) with
          | some o =>
            let l := l.add (.operator l.line o)
            { l with line := next.line }.read (o.length - 1) cs
          | none => (l.push (.text false [c])).read 0 cs

end Lexer

/-! ## Putting commands together -/

def plain? : Lexeme → Option Text
  | .word _ [.text false t] => some t
  | _ => none

/-- Complains about what a script goes on with. -/
def unexpected {α : Type} (expected : Option Text) : List Lexeme → Except SyntaxError α
  | [] => .error (.unexpected 0 "end of file".toList expected)
  | .operator line o :: _ =>
    .error (.unexpected line
      (if o = ['\n'] then "newline".toList else ['\x22'] ++ o ++ ['\x22']) expected)
  | .word line w :: _ =>
    let shown : Text := match w with
      | [.text _ t] => ['\x22'] ++ t ++ ['\x22']
      | _ => "word".toList
    .error (.unexpected line shown expected)
  | .redirect _ _ :: _ => .error (.unexpected 0 "redirection".toList expected)

/-- Words that end a list of commands. -/
def closers : List Text :=
  ["then", "else", "elif", "fi", "do", "done", "esac", "\x7d"].map String.toList

def atEnd : List Lexeme → Bool
  | [] => true
  | .operator _ o :: _ => o = [')'] || o = [';', ';']
  | x :: _ => (plain? x).any closers.contains

def skipLineEnds : List Lexeme → List Lexeme
  | .operator line o :: rest => if o = ['\n'] then skipLineEnds rest else .operator line o :: rest
  | rest => rest

def skipSeparators : List Lexeme → List Lexeme
  | .operator line o :: rest =>
    if o = ['\n'] || o = [';'] || o = ['&'] then skipSeparators rest else .operator line o :: rest
  | rest => rest

def expect (keyword : String) (xs : List Lexeme) : Except SyntaxError (List Lexeme) :=
  match xs with
  | x :: rest => if plain? x = some keyword.toList then .ok rest else unexpected (some keyword.toList) xs
  | [] => unexpected (some keyword.toList) []

def redirections : List Lexeme → List Redirection × List Lexeme
  | .redirect stream sign :: .word _ w :: rest =>
    let r : Redirection := match String.ofList sign with
      | "<" => .fromFile w
      | ">&" => .toStream stream w
      | ">>" => .toFile stream true w
      | _ => .toFile stream false w
    let (rs, rest) := redirections rest
    (r :: rs, rest)
  | rest => ([], rest)

def assignment? : Word → Option (Text × Word)
  | .text false t :: more =>
    match Text.cutAt? ['='] t with
    | some (name, value) =>
      if name ≠ [] && name.all isNameChar && !(name.head?.any Char.isDigit) then
        some (name, if value = [] then more else .text false value :: more)
      else none
    | none => none
  | _ => none

/-- A simple command: assignments, words and redirections. -/
structure Simple where
  line : Nat := 0
  assignments : List (Text × Word) := []
  words : List Word := []
  streams : List Redirection := []

def readSimple (s : Simple) : List Lexeme → Simple × List Lexeme
  | .word line w :: rest =>
    let s := if s.line = 0 then { s with line } else s
    match if s.words = [] then assignment? w else none with
    | some a => readSimple { s with assignments := s.assignments ++ [a] } rest
    | none => readSimple { s with words := s.words ++ [w] } rest
  | .redirect stream sign :: .word line w :: rest =>
    let (rs, _) := redirections [.redirect stream sign, .word line w]
    readSimple { s with streams := s.streams ++ rs } rest
  | rest => (s, rest)

def readWords : List Lexeme → List Word × List Lexeme
  | .word _ w :: rest =>
    let (ws, rest) := readWords rest
    (w :: ws, rest)
  | rest => ([], rest)

def readPatterns : List Lexeme → List Word × List Lexeme
  | .operator line o :: rest =>
    if o = ['('] || o = ['|'] then readPatterns rest
    else if o = [')'] then ([], rest)
    else ([], .operator line o :: rest)
  | .word _ w :: rest =>
    let (ws, rest) := readPatterns rest
    (w :: ws, rest)
  | rest => ([], rest)

mutual

def readList : Nat → List Lexeme → Except SyntaxError (Script × List Lexeme)
  | 0, xs => unexpected none xs
  | fuel + 1, xs =>
    let xs := skipSeparators xs
    if atEnd xs then .ok (.skip, xs)
    else do
      let (first, rest) ← readAndOr fuel xs
      match rest with
      | .operator _ o :: more =>
        if o = [';'] || o = ['\n'] || o = ['&'] then
          let (others, rest) ← readList fuel more
          return (match others with
            | .skip => first
            | _ => .sequence first others, rest)
        else if atEnd rest then return (first, rest)
        else unexpected none rest
      | rest => if atEnd rest then return (first, rest) else unexpected none rest

def readAndOr : Nat → List Lexeme → Except SyntaxError (Script × List Lexeme)
  | 0, xs => unexpected none xs
  | fuel + 1, xs => do
    let (first, rest) ← readPipe fuel xs
    joined fuel first rest

/-- Reads what follows a command that others depend on. -/
def joined : Nat → Script → List Lexeme → Except SyntaxError (Script × List Lexeme)
  | 0, _, xs => unexpected none xs
  | fuel + 1, first, xs =>
    match xs with
    | .operator _ ['&', '&'] :: rest => do
      let (second, rest) ← readPipe fuel (skipLineEnds rest)
      joined fuel (.onStatus true first second) rest
    | .operator _ ['|', '|'] :: rest => do
      let (second, rest) ← readPipe fuel (skipLineEnds rest)
      joined fuel (.onStatus false first second) rest
    | rest => .ok (first, rest)

def readPipe : Nat → List Lexeme → Except SyntaxError (Script × List Lexeme)
  | 0, xs => unexpected none xs
  | fuel + 1, xs =>
    match xs with
    | .word line [.text false ['!']] :: rest => do
      let (inner, rest) ← readPipe fuel rest
      let _ := line
      return (.negate inner, rest)
    | xs => do
      let (first, rest) ← readCommand fuel xs
      match rest with
      | .operator _ ['|'] :: rest =>
        let (second, rest) ← readPipe fuel (skipLineEnds rest)
        return (.pipe first second, rest)
      | rest => return (first, rest)

def readBranch : Nat → List Lexeme → Except SyntaxError (Script × List Lexeme)
  | 0, xs => unexpected none xs
  | fuel + 1, xs => do
    let (test, rest) ← readList fuel xs
    let (yes, rest) ← readList fuel (← expect "then" rest)
    match rest.head?.bind plain? |>.map String.ofList with
    | some "elif" =>
      let (no, rest) ← readBranch fuel (rest.drop 1)
      return (.branch test yes no, rest)
    | some "else" =>
      let (no, rest) ← readList fuel (rest.drop 1)
      return (.branch test yes no, ← expect "fi" rest)
    | _ => return (.branch test yes .skip, ← expect "fi" rest)

def readChoice (word : Word) : Nat → List Lexeme → Except SyntaxError (Script × List Lexeme)
  | 0, xs => unexpected none xs
  | fuel + 1, xs => do
    let xs := skipLineEnds xs
    if (xs.head?.bind plain?) = some "esac".toList then return (.skip, xs.drop 1)
    let (patterns, rest) := readPatterns xs
    if patterns = [] then unexpected none xs
    let (yes, rest) ← readList fuel rest
    match rest with
    | .operator _ [';', ';'] :: rest =>
      let (no, rest) ← readChoice word fuel rest
      return (.choose word patterns yes no, rest)
    | rest => return (.choose word patterns yes .skip, ← expect "esac" rest)

def readBody : Nat → List Lexeme → Except SyntaxError (Script × List Lexeme)
  | 0, xs => unexpected none xs
  | fuel + 1, xs => do
    let (body, rest) ← readList fuel (← expect "do" (skipSeparators xs))
    return (body, ← expect "done" rest)

def readCommand : Nat → List Lexeme → Except SyntaxError (Script × List Lexeme)
  | 0, xs => unexpected none xs
  | fuel + 1, xs =>
    let redirected (own : Bool) (r : Except SyntaxError (Script × List Lexeme)) : Except SyntaxError (Script × List Lexeme) := do
      let (body, rest) ← r
      let (streams, rest) := redirections rest
      return (if streams = [] && !own then body else .group own body streams, rest)
    match xs with
    | .operator _ ['('] :: rest =>
      redirected true do
        let (body, rest) ← readList fuel rest
        match rest with
        | .operator _ [')'] :: rest => return (body, rest)
        | rest => unexpected (some [')']) rest
    | .word _ [.text false name] :: .operator _ ['('] :: .operator _ [')'] :: rest => do
      let (body, rest) ← readCommand fuel (skipLineEnds rest)
      return (.function name body, rest)
    | x :: rest =>
      match (plain? x).map String.ofList with
      | some "if" => redirected false (readBranch fuel rest)
      | some "\x7b" =>
        redirected false do
          let (body, rest) ← readList fuel rest
          return (body, ← expect "\x7d" rest)
      | some "while" =>
        redirected false do
          let (test, rest) ← readList fuel rest
          let (body, rest) ← readBody fuel rest
          return (.loop true test body, rest)
      | some "until" =>
        redirected false do
          let (test, rest) ← readList fuel rest
          let (body, rest) ← readBody fuel rest
          return (.loop false test body, rest)
      | some "for" =>
        redirected false do
          match rest with
          | .word _ [.text false name] :: more =>
            if (more.head?.bind plain?) = some "in".toList then
              let (words, rest) := readWords (more.drop 1)
              let (body, rest) ← readBody fuel rest
              return (.each name (some words) body, rest)
            else
              let (body, rest) ← readBody fuel more
              return (.each name none body, rest)
          | rest => unexpected none rest
      | some "case" =>
        redirected false do
          match rest with
          | .word _ w :: rest => readChoice w fuel (← expect "in" (skipLineEnds rest))
          | rest => unexpected none rest
      | some name =>
        if closers.contains name.toList then unexpected none xs else command xs
      | none => command xs
    | [] => unexpected none []
where
  /-- A simple command, which may not be empty. -/
  command (xs : List Lexeme) : Except SyntaxError (Script × List Lexeme) :=
    let (s, rest) := readSimple {} xs
    if s.words = [] && s.assignments = [] && s.streams = [] then unexpected none xs
    else .ok (.simple s.line s.assignments s.words s.streams, rest)

end

end ShellScript

def Script.ofText (t : Text) : Except SyntaxError Script :=
  match ShellScript.Lexer.read {} 0 t with
  | none => .error .unterminatedQuote
  | some lexemes => do
    let (script, rest) ← ShellScript.readList (8 * lexemes.length + 8) lexemes
    if rest = [] then return script else ShellScript.unexpected none rest

end PromptDoc.Tool
