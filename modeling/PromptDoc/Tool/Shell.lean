/-
# PromptDoc.Tool.Shell — running shell scripts

A script is run on a `State`: the disk, what is left of standard input, variables,
functions, arguments, the last status, and a log of what was written to either
stream, in order. Files that a script writes are on its disk as long as it runs.
How many steps a script takes is bounded by `fuel`.
-/
import PromptDoc.Tool.Names
import PromptDoc.Tool.Print
import PromptDoc.Tool.ShellScript
import PromptDoc.Tool.ShellSum

namespace PromptDoc.Tool.Shell

set_option autoImplicit false

/-- The programs that a script can start; none where there is no such program. -/
abbrev External := Text → Call → Option ProgramOutput

/-- Why a script does not go on with its next command. -/
inductive Ending where
  | exited
  | killed
  /-- The function that is run is left. -/
  | returned
  /-- The loop that is run is left. -/
  | leftLoop
  /-- The round of a loop is left. -/
  | leftRound
deriving DecidableEq, Repr

structure State where
  disk : Disk
  stdin : Bytes := []
  /-- What was written, and whether to standard error. -/
  log : List (Bool × Bytes) := []
  bindings : List (Text × Text) := []
  functions : List (Text × Script) := []
  /-- The name of the script. -/
  name : Text
  arguments : List Text := []
  process : Nat
  status : Int := 0
  /-- The status of the last script whose output stands in the words of a command. -/
  inner : Option Int := none
  /-- Whether the script ends where a command fails. -/
  strict : Bool := false
  ended : Option Ending := none

namespace State

def write (s : State) (error : Bool) (b : Bytes) : State :=
  if b = [] then s else { s with log := s.log ++ [(error, b)] }

def took (s : State) (o : ProgramOutput) : State :=
  { (s.write false o.stdout).write true o.stderr with status := o.exitCode.getD 137 }

/-- Complains about a line of the script. -/
def complain (s : State) (line : Nat) (status : Int) (complaint : Text) : State :=
  { s.write true (Text.encode (s.name ++ ": ".toList ++ Text.ofNat (max 1 line) ++ ": ".toList ++
      complaint ++ ['\n'])) with status }

def written (s : State) (error : Bool) : Bytes :=
  s.log.flatMap fun (e, b) => if e = error then b else []

def assign (s : State) (name value : Text) : State :=
  { s with bindings := (name, value) :: s.bindings.filter (·.1 ≠ name) }

def lookup? (s : State) (name : Text) : Option Text :=
  match name with
  | ['$'] => some (Text.ofNat s.process)
  | ['?'] => some (Text.ofInt s.status)
  | ['#'] => some (Text.ofNat s.arguments.length)
  | ['@'] => some ([' '].intercalate s.arguments)
  | ['*'] => some ([' '].intercalate s.arguments)
  | ['0'] => some s.name
  | _ =>
    match number? name with
    | some n => s.arguments[n - 1]?
    | none => (s.bindings.find? (·.1 = name)).map (·.2)

/-- The value of a parameter by what stands in its braces: its name, a sign in front
of it for its length, or a sign behind it and what is meant where it has no value. -/
def value (s : State) (parameter : Text) : Text :=
  match parameter with
  | '#' :: c :: cs => Text.ofNat ((s.lookup? (c :: cs)).getD []).length
  | _ =>
    let isName (c : Char) : Bool := ShellScript.isNameChar c
    let name := match parameter.takeWhile isName with
      | [] => parameter.take 1
      | name => name
    let found := s.lookup? name
    let filled := found.any (· ≠ [])
    match parameter.drop name.length with
    | ':' :: '-' :: other => if filled then found.getD [] else other
    | '-' :: other => found.getD other
    | ':' :: '=' :: other => if filled then found.getD [] else other
    | ':' :: '+' :: other => if filled then other else []
    | '+' :: other => if found.isSome then other else []
    | _ => found.getD []

def numberOf (s : State) (name : Text) : Int := (Test.int? ((s.lookup? name).getD [])).getD 0

end State

/-! ## Words -/

/-- A part of an expanded word. -/
inductive Fragment where
  | char (c : Char) (quoted : Bool)
  /-- A place where words are apart. -/
  | border
  /-- A quoted part, which makes a word even if it is empty. -/
  | present

def endField (field : Option (List (Char × Bool))) : List (List (Char × Bool)) := field.toList

/-- The fields of an expanded word; `field` is the one that is being read. -/
def fields (field : Option (List (Char × Bool))) : List Fragment → List (List (Char × Bool))
  | [] => endField field
  | .border :: rest => endField field ++ fields none rest
  | .present :: rest => fields (some (field.getD [])) rest
  | .char c quoted :: rest =>
    if !quoted && (c = ' ' || c = '\t' || c = '\n') then endField field ++ fields none rest
    else fields (some (field.getD [] ++ [(c, quoted)])) rest

/-- Whether a name matches a pattern with stars and question marks, of which the
quoted ones stand for themselves. -/
def matchesName : List (Char × Bool) → Text → Bool
  | [], [] => true
  | [], _ :: _ => false
  | ('*', false) :: ps, [] => matchesName ps []
  | ('*', false) :: ps, c :: cs => matchesName ps (c :: cs) || matchesName (('*', false) :: ps) cs
  | (p, quoted) :: ps, c :: cs =>
    (p = c || (p = '?' && !quoted)) && matchesName ps cs
  | _ :: _, [] => false
termination_by ps t => (ps.length + t.length)

/-- The words of a field: the names that it matches in the working directory, or
itself. -/
def names (d : Disk) (field : List (Char × Bool)) : List Text :=
  let itself := [field.map (·.1)]
  let wild := field.any fun (c, quoted) => !quoted && (c = '*' || c = '?')
  if wild && !field.any (·.1 = '/') then
    match d.node ['.'] with
    | .ok t =>
      let dotted := (field.head?.map (·.1)) = some '.'
      let found := (Names.entries ['A'] t).filter fun n =>
        matchesName field n && (dotted || n.head? ≠ some '.')
      if found = [] then itself else found
    | .error _ => itself
  else itself

def wordsOf (d : Disk) (fragments : List Fragment) : List Text :=
  (fields none fragments).flatMap (names d)

def textOf (fragments : List Fragment) : Text :=
  fragments.filterMap fun
    | .char c _ => some c
    | _ => none

def fragmentsOf (quoted : Bool) (t : Text) : List Fragment :=
  (if quoted then [.present] else []) ++ t.map (.char · quoted)

def eachArgument : List Text → List Fragment
  | [] => []
  | [a] => fragmentsOf true a
  | a :: rest => fragmentsOf true a ++ .border :: eachArgument rest

/-! ## Streams -/

inductive Sink where
  | out
  | err
  | file (path : Text)
  | nowhere
deriving DecidableEq, Repr

/-- Where both streams of a command go, and what it reads if not the input of the
script. -/
structure Streams where
  out : Sink := .out
  err : Sink := .err
  input : Option Bytes := none

/-- A redirection whose words are expanded. -/
inductive Opening where
  | toFile (stream : Nat) (behind : Bool) (path : Text)
  | toStream (stream : Nat) (other : Text)
  | fromFile (path : Text)

def Streams.send (k : Streams) (stream : Nat) (goal : Sink) : Streams :=
  if stream = 2 then { k with err := goal } else { k with out := goal }

/-- Follows redirections; a file that cannot be opened is given back with the reason. -/
def openStreams (d : Disk) (k : Streams) : List Opening → Except Text (Disk × Streams)
  | [] => .ok (d, k)
  | .fromFile path :: rest =>
    if path = "/dev/null".toList then openStreams d { k with input := some [] } rest
    else
      match d.read path with
      | .ok contents => openStreams d { k with input := some contents } rest
      | .error .notFound => .error ("cannot open ".toList ++ path ++ ": No such file".toList)
      | .error e => .error ("cannot open ".toList ++ path ++ ": ".toList ++ e.summary)
  | .toStream stream other :: rest =>
    let goal := if other = ['1'] then k.out else if other = ['2'] then k.err else .nowhere
    openStreams d (k.send stream goal) rest
  | .toFile stream behind path :: rest =>
    if path = "/dev/null".toList then openStreams d (k.send stream .nowhere) rest
    else
      match (if behind && d.isFile path then .ok d else d.create path) with
      | .ok d => openStreams d (k.send stream (.file path)) rest
      | .error .notFound =>
        .error ("cannot create ".toList ++ path ++ ": Directory nonexistent".toList)
      | .error e => .error ("cannot create ".toList ++ path ++ ": ".toList ++ e.summary)

def deliver (k : Streams) (s : State) : List (Bool × Bytes) → State
  | [] => s
  | (error, b) :: rest =>
    match if error then k.err else k.out with
    | .out => deliver k (s.write false b) rest
    | .err => deliver k (s.write true b) rest
    | .nowhere => deliver k s rest
    | .file path =>
      let contents := (s.disk.read path).toOption.getD [] ++ b
      deliver k { s with disk := (s.disk.write path contents).toOption.getD s.disk } rest

/-- Reads a line of standard input. -/
def readLine (s : State) (names : List Text) : State :=
  match lines s.stdin with
  | [] => { s with status := 1 }
  | first :: _ =>
    let words := (Text.decodeLossy (chomp first)).splitOnP (fun c => c = ' ' || c = '\t')
    let words := words.filter (· ≠ [])
    let values := names.zipIdx.map fun (name, i) =>
      (name, if i + 1 = names.length then [' '].intercalate (words.drop i) else words.getD i [])
    let s := values.foldl (fun s (name, value) => s.assign name value) s
    { s with
      stdin := s.stdin.drop first.length
      status := if first.getLast? = some 10 then 0 else 1 }

/-! ## Commands -/

def endRound (s : State) : Bool × State :=
  match s.ended with
  | none => (true, s)
  | some .leftRound => (true, { s with ended := none })
  | some .leftLoop => (false, { s with ended := none })
  | some _ => (false, s)

/-- The commands that belong to the shell and start no other; none for any other. -/
def builtin? (s : State) (line : Nat) (name : Text) (arguments : List Text) : Option State :=
  let call : Call := { disk := s.disk, stdin := s.stdin, arguments }
  let ask (bracket : Bool) : State :=
    match Test.ask bracket call with
    | .ok answer => { s with status := if answer then 0 else 1 }
    | .error .notClosed => s.complain line 2 (name ++ ": missing ]".toList)
    | .error (.notNumber word) =>
      s.complain line 2 (name ++ ": Illegal number: ".toList ++ word)
    | .error .other => s.complain line 2 (name ++ ": syntax error".toList)
  let ending (e : Ending) : State :=
    match arguments with
    | [] => { s with ended := some e }
    | n :: _ =>
      match number? n with
      | some n => { s with status := n, ended := some e }
      | none =>
        { s.complain line 2 (name ++ ": Illegal number: ".toList ++ n) with ended := some .exited }
  match String.ofList name with
  | ":" | "true" => some { s with status := 0 }
  | "false" => some { s with status := 1 }
  | "echo" => some (s.took (Echo.shell arguments))
  | "printf" => some (s.took (Printf.shell arguments))
  | "pwd" => some (s.took (success (Tool.line (Disk.pathOf s.disk.workingDirectory))))
  | "test" => some (ask false)
  | "[" => some (ask true)
  | "exit" => some (ending .exited)
  | "return" => some (ending .returned)
  | "break" => some { s with status := 0, ended := some .leftLoop }
  | "continue" => some { s with status := 0, ended := some .leftRound }
  | "shift" =>
    let n := (arguments.head?.bind number?).getD 1
    if s.arguments.length < n then
      some { s.complain line 2 "shift: can't shift that many".toList with ended := some .exited }
    else some { s with arguments := s.arguments.drop n, status := 0 }
  | "set" =>
    some
      (match arguments with
      | ['-', '-'] :: rest => { s with arguments := rest, status := 0 }
      | ['-', 'e'] :: _ => { s with strict := true, status := 0 }
      | ['+', 'e'] :: _ => { s with strict := false, status := 0 }
      | _ => { s with status := 0 })
  | "export" | "readonly" | "local" =>
    let assignments := arguments.filterMap (Text.cutAt? ['='])
    some { assignments.foldl (fun s (n, v) => s.assign n v) s with status := 0 }
  | "unset" =>
    some { s with bindings := s.bindings.filter (!arguments.contains ·.1), status := 0 }
  | "trap" | "wait" | "umask" | "alias" | "hash" => some { s with status := 0 }
  | "read" => some (readLine s (operands arguments))
  | "cd" =>
    let path := arguments.headD ['/']
    match s.disk.find path with
    | .ok location =>
      if s.disk.isDirectory path then
        some { s with disk := { s.disk with workingDirectory := location }, status := 0 }
      else some (s.complain line 2 ("cd: can't cd to ".toList ++ path))
    | .error _ => some (s.complain line 2 ("cd: can't cd to ".toList ++ path))
  | "kill" =>
    if arguments.getLast? = some (Text.ofNat s.process) then
      if arguments.contains ['-', '0'] then some { s with status := 0 }
      else some { s with ended := some .killed }
    else some (s.complain line 1 "kill: No such process\n".toList)
  | _ => none

/-- Starts a program outside the shell. -/
def start (external : External) (s : State) (line : Nat) (name : Text) (arguments : List Text) :
    State :=
  match external name { disk := s.disk, stdin := s.stdin, arguments } with
  | some o => { s.took o with stdin := [] }
  | none =>
    if name.contains '/' && s.disk.has name then
      s.complain line 126 (name ++ ": Permission denied".toList)
    else s.complain line 127 (name ++ ": not found".toList)

/-- The words of a syntax error. -/
def errorText : SyntaxError → Nat × Text
  | .unterminatedQuote => (1, "Syntax error: Unterminated quoted string".toList)
  | .unexpected line found expected =>
    (line, "Syntax error: ".toList ++ found ++ " unexpected".toList ++
      (match expected with
      | some e => " (expecting \"".toList ++ e ++ "\")".toList
      | none => []))

mutual

def expand (external : External) : Nat → State → Word → State × List Fragment
  | 0, s, _ => (s, [])
  | _ + 1, s, [] => (s, [])
  | fuel + 1, s, p :: ps =>
    let (s, front) := match p with
      | .text quoted t => (s, fragmentsOf quoted t)
      | .value true ['@'] => (s, eachArgument s.arguments)
      | .value quoted parameter => (s, fragmentsOf quoted (s.value parameter))
      | .sum quoted terms =>
        (s, fragmentsOf quoted (((ShellSum.value? s.numberOf terms).map Text.ofInt).getD []))
      | .output quoted source =>
        let inner := evaluate external fuel { s with log := [] } source
        let t := Text.decodeLossy (inner.written false)
        let t := (t.reverse.dropWhile (· = '\n')).reverse
        ({ s.write true (inner.written true) with inner := some inner.status },
          fragmentsOf quoted t)
    let (s, rest) := expand external fuel s ps
    (s, front ++ rest)

def expandAll (external : External) : Nat → State → List Word → State × List Text
  | 0, s, _ => (s, [])
  | _ + 1, s, [] => (s, [])
  | fuel + 1, s, w :: ws =>
    let (s, fragments) := expand external fuel s w
    let (s, rest) := expandAll external fuel s ws
    (s, wordsOf s.disk fragments ++ rest)

def assignAll (external : External) : Nat → State → List (Text × Word) → State
  | 0, s, _ => s
  | _ + 1, s, [] => s
  | fuel + 1, s, (name, w) :: rest =>
    let (s, fragments) := expand external fuel s w
    assignAll external fuel (s.assign name (textOf fragments)) rest

def resolve (external : External) : Nat → State → List Redirection → State × List Opening
  | 0, s, _ => (s, [])
  | _ + 1, s, [] => (s, [])
  | fuel + 1, s, r :: rs =>
    let w := match r with
      | .toFile _ _ w | .toStream _ w | .fromFile w => w
    let (s, fragments) := expand external fuel s w
    let t := textOf fragments
    let opening : Opening := match r with
      | .toFile stream behind _ => .toFile stream behind t
      | .toStream stream _ => .toStream stream t
      | .fromFile _ => .fromFile t
    let (s, rest) := resolve external fuel s rs
    (s, opening :: rest)

def redirected (external : External) : Nat → Nat → List Redirection → Script → State → State
  | 0, _, _, _, s => s
  | fuel + 1, line, rs, body, s =>
    let (s, openings) := resolve external fuel s rs
    match openStreams s.disk {} openings with
    | .error complaint => s.complain line 2 complaint
    | .ok (disk, k) =>
      let inner := run external fuel body
        { s with disk, log := [], stdin := k.input.getD s.stdin }
      let after := deliver k { inner with log := s.log } inner.log
      if k.input.isSome then { after with stdin := s.stdin } else after

def invoke (external : External) : Nat → Nat → State → List Text → State
  | 0, _, s, _ => s
  | _ + 1, _, s, [] => s
  | fuel + 1, line, s, name :: arguments =>
    match s.functions.find? (·.1 = name) with
    | some (_, body) =>
      let inner := run external fuel body { s with arguments }
      { inner with
        arguments := s.arguments
        ended := if inner.ended = some .returned then none else inner.ended }
    | none =>
      match String.ofList name, arguments with
      | "exec", _ => { invoke external fuel line s arguments with ended := some .exited }
      | "command", [['-', 'v'], searched] =>
        if (builtin? s line searched []).isSome then s.took (success (Tool.line searched))
        else
          match external searched { disk := s.disk, arguments := [] } with
          | some _ => s.took (success (Tool.line ("/usr/bin/".toList ++ searched)))
          | none => { s with status := 127 }
      | "command", _ => invoke external fuel line s arguments
      | "eval", _ => evaluate external fuel s ([' '].intercalate arguments)
      | "env", _ => invoke external fuel line s (arguments.dropWhile (·.contains '='))
      | _, _ =>
        match builtin? s line name arguments with
        | some s => s
        | none =>
          let plain := (name.splitOn '/').getLastD []
          let shell := ["sh", "dash", "bash"].map String.toList |>.contains plain
          match shell, arguments with
          | true, ['-', 'c'] :: source :: rest =>
            let inner : State :=
              { disk := s.disk, stdin := s.stdin, bindings := s.bindings
                name := rest.headD name, arguments := rest.drop 1, process := s.process + 1 }
            let inner := evaluate external fuel inner source
            { s with
              log := s.log ++ inner.log
              disk := { inner.disk with workingDirectory := s.disk.workingDirectory }
              stdin := []
              status := if inner.ended = some .killed then 137 else inner.status }
          | _, _ => start external s line name arguments

def evaluate (external : External) : Nat → State → Text → State
  | 0, s, _ => s
  | fuel + 1, s, source =>
    match Script.ofText source with
    | .ok script => run external fuel script s
    | .error e =>
      { s.complain (errorText e).1 2 (errorText e).2 with ended := some .exited }

def rounds (external : External) : Nat → Text → List Text → Script → State → State
  | 0, _, _, _, s => s
  | _ + 1, _, [], _, s => s
  | fuel + 1, name, w :: ws, body, s =>
    let (goesOn, s) := endRound (run external fuel body (s.assign name w))
    if goesOn then rounds external fuel name ws body s else s

def matchesAny (external : External) : Nat → State → Text → List Word → Bool
  | 0, _, _, _ => false
  | _ + 1, _, _, [] => false
  | fuel + 1, s, t, w :: ws =>
    let (_, fragments) := expand external fuel s w
    let pattern := fragments.filterMap fun
      | .char c quoted => some (c, quoted)
      | _ => none
    matchesName pattern t || matchesAny external fuel s t ws

def run (external : External) : Nat → Script → State → State
  | 0, _, s => s
  | fuel + 1, script, s =>
    if s.ended.isSome then s
    else
      match script with
      | .skip => s
      | .simple line assignments words streams =>
        let (s, ws) := expandAll external fuel { s with inner := none } words
        let s := assignAll external fuel s assignments
        if ws = [] then
          redirected external fuel line streams .skip { s with status := s.inner.getD 0 }
        else
          let (s, openings) := resolve external fuel s streams
          match openStreams s.disk {} openings with
          | .error complaint => s.complain line 2 complaint
          | .ok (disk, k) =>
            let inner := invoke external fuel line
              { s with disk, log := [], stdin := k.input.getD s.stdin } ws
            let after := deliver k { inner with log := s.log } inner.log
            let after := if k.input.isSome then { after with stdin := s.stdin } else after
            if after.strict && after.status ≠ 0 && after.ended.isNone then
              { after with ended := some .exited }
            else after
      | .pipe first second =>
        let left := run external fuel first { s with log := [], strict := false }
        let s := s.write true (left.written true)
        let right := run external fuel second
          { s with disk := left.disk, stdin := left.written false, log := [], strict := false }
        { s with
          log := s.log ++ right.log
          disk := { right.disk with workingDirectory := s.disk.workingDirectory }
          status := right.status }
      | .sequence first second => run external fuel second (run external fuel first s)
      | .onStatus success first second =>
        let after := { run external fuel first { s with strict := false } with strict := s.strict }
        if (after.status = 0) = success then run external fuel second after else after
      | .negate inner =>
        let after := { run external fuel inner { s with strict := false } with strict := s.strict }
        { after with status := if after.status = 0 then 1 else 0 }
      | .branch test yes no =>
        let after := { run external fuel test { s with strict := false } with strict := s.strict }
        if after.status = 0 then run external fuel yes after
        else run external fuel no { after with status := 0 }
      | .each name words body =>
        let (s, ws) := match words with
          | some words => expandAll external fuel s words
          | none => (s, s.arguments)
        rounds external fuel name ws body { s with status := 0 }
      | .loop success test body =>
        let after := { run external fuel test { s with strict := false } with strict := s.strict }
        if after.ended.isSome then after
        else if (after.status = 0) = success then
          let (goesOn, s) := endRound (run external fuel body after)
          if goesOn then run external fuel (.loop success test body) s else s
        else { after with status := 0 }
      | .choose word patterns yes no =>
        let (s, fragments) := expand external fuel s word
        if matchesAny external fuel s (textOf fragments) patterns then
          run external fuel yes { s with status := 0 }
        else run external fuel no { s with status := 0 }
      | .function name body =>
        { s with functions := (name, body) :: s.functions.filter (·.1 ≠ name), status := 0 }
      | .group own body streams =>
        let after := redirected external fuel 1 streams body s
        if own then
          { s with
            log := after.log
            disk := { after.disk with workingDirectory := s.disk.workingDirectory }
            stdin := after.stdin
            status := after.status
            ended := if after.ended = some .killed then after.ended else none }
        else after

end

def steps : Nat := 20000

def script (external : External) (process : Nat) (d : Disk) (stdin : Bytes) (text : Text)
    (arguments : List Text) : ProgramOutput :=
  let s : State :=
    { disk := d, stdin, name := arguments.headD "sh".toList, arguments := arguments.drop 1, process }
  let s := evaluate external steps s text
  { exitCode := if s.ended = some .killed then none else some (s.status % 256)
    stdout := s.written false
    stderr := s.written true }

end PromptDoc.Tool.Shell
