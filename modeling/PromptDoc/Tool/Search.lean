/-
# PromptDoc.Tool.Search — the lines that match a pattern

`grep` prints the lines of files in which one of its patterns stands, or counts
them, or only says whether there are any.
-/
import PromptDoc.Tool.Lines
import PromptDoc.Tool.Pattern

namespace PromptDoc.Tool.Search

set_option autoImplicit false

structure Request where
  options : Text := []
  patterns : List Text := []
  files : List Text := []

/-- Reads arguments; the first operand is the pattern if no option names one. -/
def Request.read (r : Request) : List Text → Request
  | [] =>
    match r.patterns, r.files with
    | [], p :: files => { r with patterns := p.splitOn '\n', files }
    | _, _ => r
  | ['-', 'e'] :: p :: rest => { r with patterns := r.patterns ++ p.splitOn '\n' }.read rest
  | ('-' :: l :: ls) :: rest => { r with options := r.options ++ (l :: ls) }.read rest
  | file :: rest => { r with files := r.files ++ [file] }.read rest

def Request.has (r : Request) (letter : Char) : Bool := r.options.contains letter

def Request.pattern? (r : Request) (t : Text) : Option Pattern :=
  let p? := if r.has 'F' then some (Pattern.literal t)
    else Pattern.read? (if r.has 'E' then .extended else .basic) t
  let p? := if r.has 'i' then p?.map (·.anyCase) else p?
  if r.has 'x' then p?.map fun p => .sequence .lineStart (.sequence p .lineEnd) else p?

def isWordByte (b : UInt8) : Bool :=
  b = 95 || (48 ≤ b && b ≤ 57) || (65 ≤ b && b ≤ 90) || (97 ≤ b && b ≤ 122)

/-- Whether a pattern stands in a line as a word of its own. -/
def isWordIn (p : Pattern) (total : Nat) (before : Option UInt8) : Bytes → Bool
  | [] => false
  | b :: s =>
    let found := (p.rests total (b :: s)).any fun rest =>
      rest.length < (b :: s).length && !before.any isWordByte && !rest.head?.any isWordByte
    found || isWordIn p total (some b) s

def Request.wants (r : Request) (ps : List Pattern) (line : Bytes) : Bool :=
  let found := ps.any fun p => if r.has 'w' then isWordIn p line.length none line else p.isIn line
  found != r.has 'v'

/-- The matches in a line, one after the other. -/
def matchesIn (p : Pattern) (total : Nat) : Nat → Bytes → List Bytes
  | 0, _ => []
  | fuel + 1, s =>
    match p.find? total s with
    | some (_, [], _) => []
    | some (_, found, rest) => found :: matchesIn p total fuel rest
    | none => []

def Request.part (r : Request) (ps : List Pattern) (file : Text) (contents : Bytes) :
    Bytes × Bool :=
  let name := if (r.files.length > 1 || r.has 'H') && !r.has 'h' then
      Text.encode (file ++ [':']) else []
  let found := ((lines contents).map chomp).zipIdx.filter fun (l, _) => r.wants ps l
  let any := !found.isEmpty
  let numberOf (i : Nat) : Bytes := if r.has 'n' then Text.encode (Text.ofNat (i + 1) ++ [':']) else []
  let shown :=
    if r.has 'q' then []
    else if r.has 'l' then if any then line file else []
    else if r.has 'L' then if any then [] else line file
    else if r.has 'c' then name ++ line (Text.ofNat found.length)
    else if contents.contains 0 then
      if any then line ("grep: ".toList ++ file ++ ": binary file matches".toList) else []
    else if r.has 'o' then
      found.flatMap fun (l, i) => (ps.flatMap fun p => matchesIn p l.length (l.length + 1) l).flatMap
        fun m => name ++ numberOf i ++ m ++ [10]
    else found.flatMap fun (l, i) => name ++ numberOf i ++ l ++ [10]
  (shown, any)

def run (c : Call) : ProgramOutput :=
  let r := ({} : Request).read c.arguments
  if r.patterns = [] then
    failure 2 ("Usage: grep [OPTION]... PATTERNS [FILE]...\n" ++
      "Try 'grep --help' for more information.\n").toList
  else
    match r.patterns.mapM r.pattern? with
    | none => failure 2 "grep: Invalid regular expression\n".toList
    | some ps =>
      let results := (Call.orInput r.files).map fun file => (file, c.read file)
      let parts := results.filterMap fun (file, result) => result.toOption.map (r.part ps file)
      let failed := !results.all (·.2.toBool)
      let complaint : Text × Except FileError Bytes → Text
        | (_, .ok _) => []
        | (file, .error e) => if r.has 's' then [] else plainComplaint "grep" file e
      { exitCode := some (if failed then 2 else if parts.any (·.2) then 0 else 1)
        stdout := parts.flatMap (·.1)
        stderr := Text.encode (results.flatMap complaint) }

end PromptDoc.Tool.Search
