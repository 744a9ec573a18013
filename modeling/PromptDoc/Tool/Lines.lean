/-
# PromptDoc.Tool.Lines — programs on the lines of files

Counting (`wc`), ordering (`sort`), joining equal neighbours (`uniq`), turning
around (`tac`, `rev`), numbering (`nl`), cutting out (`cut`), replacing single bytes
(`tr`) and digests (`sha1sum`). Each of them reads the files it is given, or standard input.
-/
import PromptDoc.Tool.Call
import PromptDoc.Tool.Sha1

namespace PromptDoc.Tool

set_option autoImplicit false

/-- Reads files and prints what becomes of their contents; a file that cannot be
read is complained about. -/
def eachFile (c : Call) (files : List Text) (code : Int) (complaint : Text → FileError → Text)
    (print : Bytes → Bytes) : ProgramOutput :=
  let results := (Call.orInput files).map fun file => (file, c.read file)
  let complaints := results.flatMap fun (file, result) =>
    match result with
    | .ok _ => []
    | .error e => complaint file e
  { exitCode := some (if results.all (·.2.toBool) then 0 else code)
    stdout := results.flatMap fun (_, result) => (result.toOption.map print).getD []
    stderr := Text.encode complaints }

def plainComplaint (program : String) (file : Text) (e : FileError) : Text :=
  program.toList ++ ": ".toList ++ file ++ ": ".toList ++ e.summary ++ ['\n']

/-! ## Counting -/

namespace Count

/-- Whether a byte is a blank. -/
def isBlank (b : UInt8) : Bool := b = 32 || (9 ≤ b && b ≤ 13)

def words : Bool → Bytes → Nat
  | _, [] => 0
  | inside, b :: s =>
    if isBlank b then words false s else (if inside then 0 else 1) + words true s

def counts (options : Text) (contents : Bytes) : List Nat :=
  let has (c : Char) : Bool := options.contains c || options = []
  (if has 'l' then [contents.count 10] else []) ++ (if has 'w' then [words false contents] else []) ++
    (if has 'c' || options.contains 'm' then [contents.length] else [])

def row (width : Nat) (numbers : List Nat) (name : Text) : Bytes :=
  let shown := numbers.map fun n =>
    let digits := Text.ofNat n
    List.replicate (width - digits.length) ' ' ++ digits
  line ([' '].intercalate shown ++ (if name = [] then [] else ' ' :: name))

def run (c : Call) : ProgramOutput :=
  let options := letters c.arguments
  let files := operands c.arguments
  let results := (Call.orInput files).map fun file => (file, c.read file)
  let contents := results.filterMap (·.2.toOption)
  let single := results.length = 1 && options.length = 1
  let regular := files ≠ [] && !files.contains ['-'] && results.all (·.2.toBool)
  let digits := (Text.ofNat contents.flatten.length).length
  let width := if single then 1 else if regular then digits else max 7 digits
  let rows := results.flatMap fun (file, result) =>
    match result with
    | .ok s => row width (counts options s) (if files = [] then [] else file)
    | .error .isDirectory => row width (counts options []) file
    | .error _ => []
  let total : List Nat := (contents.map (counts options)).foldl (List.zipWith (· + ·))
    ((counts options []).map fun _ => 0)
  { exitCode := some (if results.all (·.2.toBool) then 0 else 1)
    stdout := rows ++ (if results.length > 1 then row width total "total".toList else [])
    stderr := Text.encode (results.flatMap fun (file, result) =>
      match result with
      | .ok _ => []
      | .error e => plainComplaint "wc" file e) }

end Count

/-! ## Ordering -/

def lineLe (a b : Bytes) : Bool := !decide (b < a)

/-- The number that a line begins with, and whether it is negative. -/
def leadingNumber (line : Bytes) : Int :=
  let t : Text := (line.map fun b => Char.ofNat b.toNat).dropWhile fun c => c = ' ' || c = '\t'
  match t with
  | '-' :: digits => -(Int.ofNat (number (digits.takeWhile Char.isDigit)))
  | digits => Int.ofNat (number (digits.takeWhile Char.isDigit))

def orderLe (options : Text) (a b : Bytes) : Bool :=
  let (a, b) := if options.contains 'r' then (b, a) else (a, b)
  if options.contains 'n' && leadingNumber a ≠ leadingNumber b then
    leadingNumber a < leadingNumber b
  else lineLe a b

def dropRepeats {α : Type} (like : α → α → Bool) : List α → List α
  | a :: b :: rest =>
    if like a b then dropRepeats like (a :: rest) else a :: dropRepeats like (b :: rest)
  | rest => rest
termination_by l => l.length

def Sort.run (c : Call) : ProgramOutput :=
  let options := letters c.arguments
  let files := Call.orInput (operands c.arguments)
  match files.find? fun file => !(c.read file).toBool with
  | some file =>
    match c.read file with
    | .error .isDirectory =>
      failure 2 ("sort: read failed: ".toList ++ file ++ ": Is a directory\n".toList)
    | .error e => failure 2 ("sort: cannot read: ".toList ++ file ++ ": ".toList ++ e.summary ++ ['\n'])
    | .ok _ => success []
  | none =>
    let all := files.flatMap fun file => (lines ((c.read file).toOption.getD [])).map chomp
    let sorted := all.mergeSort (orderLe options)
    let like (a b : Bytes) : Bool :=
      if options.contains 'n' then leadingNumber a = leadingNumber b else a = b
    let kept := if options.contains 'u' then dropRepeats like sorted else sorted
    success (kept.flatMap (· ++ [10]))

/-! ## Equal neighbours -/

namespace Uniq

def runs : List Bytes → List (Bytes × Nat)
  | [] => []
  | a :: rest =>
    match runs rest with
    | (b, n) :: more => if a = b then (b, n + 1) :: more else (a, 1) :: (b, n) :: more
    | [] => [(a, 1)]

def run (c : Call) : ProgramOutput :=
  let options := letters c.arguments
  let keep (n : Nat) : Bool :=
    (!options.contains 'd' || 1 < n) && (!options.contains 'u' || n = 1)
  let show1 (r : Bytes × Nat) : Bytes :=
    let digits := Text.ofNat r.2
    (if options.contains 'c' then
      Text.encode (List.replicate (7 - digits.length) ' ' ++ digits ++ [' ']) else []) ++ r.1 ++ [10]
  eachFile c ((operands c.arguments).take 1) 1 (plainComplaint "uniq") fun contents =>
    ((runs ((lines contents).map chomp)).filter (keep ·.2)).flatMap show1

end Uniq

/-! ## Turning around and numbering -/

def Tac.run (c : Call) : ProgramOutput :=
  eachFile c (operands c.arguments) 1
    (fun file e => "tac: failed to open '".toList ++ file ++ "' for reading: ".toList ++
      e.summary ++ ['\n'])
    fun contents => (lines contents).reverse.flatten

def Rev.run (c : Call) : ProgramOutput :=
  eachFile c (operands c.arguments) 1
    (fun file e => "rev: cannot open ".toList ++ file ++ ": ".toList ++ e.summary ++ ['\n'])
    fun contents => (lines contents).flatMap fun l =>
      if l.getLast? = some 10 then l.dropLast.reverse ++ [10] else l.reverse

/-- Numbers lines from a number on; empty lines are passed over on request. -/
def numbered (empty : Bool) : Nat → List Bytes → Bytes
  | _, [] => []
  | n, l :: ls =>
    if !empty && chomp l = [] then Text.encode (List.replicate 7 ' ') ++ l ++ numbered empty n ls
    else
      let digits := Text.ofNat n
      Text.encode (List.replicate (6 - digits.length) ' ' ++ digits ++ ['\t']) ++ l ++
        numbered empty (n + 1) ls

def Nl.run (c : Call) : ProgramOutput :=
  eachFile c (operands c.arguments) 1 (plainComplaint "nl") fun contents =>
    numbered false 1 ((lines contents).map ended)

/-! ## Cutting and replacing -/

namespace Cut

/-- The ranges of a list such as `1,3-5,7-`; a range without an end is open. -/
def ranges (t : Text) : List (Nat × Option Nat) :=
  (t.splitOn ',').map fun part =>
    match part.splitOn '-' with
    | [n] => (number n, some (number n))
    | [a, b] => (if a = [] then 1 else number a, if b = [] then none else some (number b))
    | _ => (0, some 0)

def isIn (rs : List (Nat × Option Nat)) (n : Nat) : Bool :=
  rs.any fun (a, b) => a ≤ n && b.all (n ≤ ·)

def pick {α : Type} (rs : List (Nat × Option Nat)) (xs : List α) : List α :=
  (xs.zipIdx.filter fun (_, i) => isIn rs (i + 1)).map (·.1)

structure Request where
  fields : Option (List (Nat × Option Nat)) := none
  places : List (Nat × Option Nat) := []
  separator : UInt8 := 9
  /-- Whether lines without a separator are left out. -/
  only : Bool := false
  files : List Text := []

def Request.read (r : Request) : List Text → Request
  | [] => r
  | ['-', 's'] :: rest => { r with only := true }.read rest
  | ['-', 'd'] :: d :: rest => { r with separator := (Text.encode d).headD 9 }.read rest
  | ('-' :: 'd' :: d) :: rest => { r with separator := (Text.encode d).headD 9 }.read rest
  | ['-', 'f'] :: l :: rest => { r with fields := some (ranges l) }.read rest
  | ('-' :: 'f' :: l) :: rest => { r with fields := some (ranges l) }.read rest
  | ['-', 'c'] :: l :: rest => { r with places := ranges l }.read rest
  | ('-' :: 'c' :: l) :: rest => { r with places := ranges l }.read rest
  | ['-', 'b'] :: l :: rest => { r with places := ranges l }.read rest
  | ('-' :: 'b' :: l) :: rest => { r with places := ranges l }.read rest
  | file :: rest => { r with files := r.files ++ [file] }.read rest

def Request.line (r : Request) (l : Bytes) : Bytes :=
  match r.fields with
  | none => pick r.places l ++ [10]
  | some fields =>
    if l.contains r.separator then
      [r.separator].intercalate (pick fields (l.splitOn r.separator)) ++ [10]
    else if r.only then [] else l ++ [10]

def run (c : Call) : ProgramOutput :=
  let r := ({} : Request).read c.arguments
  eachFile c r.files 1 (plainComplaint "cut") fun contents =>
    (lines contents).flatMap fun l => r.line (chomp l)

end Cut

namespace Translate

/-- The bytes of a set: single ones, escapes and ranges. -/
def set : Text → Bytes
  | '\x5c' :: 'n' :: rest => 10 :: set rest
  | '\x5c' :: 't' :: rest => 9 :: set rest
  | '\x5c' :: c :: rest => Text.encode [c] ++ set rest
  | a :: '-' :: b :: rest =>
    ((List.range (b.toNat + 1 - a.toNat)).map fun i => UInt8.ofNat (a.toNat + i)) ++ set rest
  | c :: rest => Text.encode [c] ++ set rest
  | [] => []

def setOf (t : Text) : Bytes :=
  match String.ofList t with
  | "[:upper:]" => set "A-Z".toList
  | "[:lower:]" => set "a-z".toList
  | "[:digit:]" => set "0-9".toList
  | "[:alpha:]" => set "A-Za-z".toList
  | "[:space:]" => [9, 10, 11, 12, 13, 32]
  | _ => set t

/-- Leaves out bytes of a set that are like the one before them. -/
def squeeze (s : Bytes) (b : Bytes) : Bytes := dropRepeats (fun x y => x = y && s.contains x) b

def run (c : Call) : ProgramOutput :=
  let options := letters c.arguments
  match operands c.arguments with
  | [a, b] =>
    let source := setOf a
    let target := setOf b
    let moved := c.stdin.map fun x =>
      match source.idxOf? x with
      | some i => target.getD i (target.getLastD x)
      | none => x
    success (if options.contains 's' then squeeze target moved else moved)
  | [a] =>
    let source := setOf a
    if options.contains 'd' then success (c.stdin.filter fun x => !source.contains x)
    else if options.contains 's' then success (squeeze source c.stdin)
    else
      failure 1 ("tr: missing operand after '".toList ++ a ++
        "'\nTwo strings must be given when translating.\nTry 'tr --help' for more information.\n".toList)
  | [] => failure 1 "tr: missing operand\nTry 'tr --help' for more information.\n".toList
  | _ :: _ :: extra :: _ =>
    failure 1 ("tr: extra operand '".toList ++ extra ++
      "'\nTry 'tr --help' for more information.\n".toList)

end Translate

def Digest.run (c : Call) : ProgramOutput :=
  let results := (Call.orInput (operands c.arguments)).map fun file => (file, c.read file)
  { exitCode := some (if results.all (·.2.toBool) then 0 else 1)
    stdout := results.flatMap fun (file, result) =>
      match result with
      | .ok contents => line (Sha1.digest contents ++ "  ".toList ++ file)
      | .error _ => []
    stderr := Text.encode (results.flatMap fun (file, result) =>
      match result with
      | .ok _ => []
      | .error e => plainComplaint "sha1sum" file e) }

def Seq.run (c : Call) : ProgramOutput :=
  let value? (t : Text) : Option Int := match t with
    | '-' :: digits => (number? digits).map fun n => -(Int.ofNat n)
    | digits => (number? digits).map Int.ofNat
  let count (first step last : Int) : ProgramOutput :=
    let n := if step = 0 then 0 else ((last - first) / step + 1).toNat
    success ((List.range n).flatMap fun i => line (Text.ofInt (first + step * Int.ofNat i)))
  match c.arguments.find? fun a => (value? a).isNone with
  | some a =>
    failure 1 ("seq: invalid floating point argument: '".toList ++ a ++
      "'\nTry 'seq --help' for more information.\n".toList)
  | none =>
    match c.arguments.filterMap value? with
    | [last] => count 1 1 last
    | [first, last] => count first 1 last
    | [first, step, last] => count first step last
    | _ => failure 1 "seq: missing operand\nTry 'seq --help' for more information.\n".toList

end PromptDoc.Tool
