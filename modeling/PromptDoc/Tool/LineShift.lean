/-
# PromptDoc.Tool.LineShift — where a change is shown

A run of changed lines can be shown one line higher if the line before it is like its
last line, and one line lower if the line behind it is like its first. A run that
meets another one on its way joins it. In the end a run stands beside a change of
the other file if it can, else as low as possible, or where blank lines and
indentation suggest that it begins.
-/
import PromptDoc.Tool.Call

namespace PromptDoc.Tool.LineShift

set_option autoImplicit false

structure Marked where
  lines : Array Bytes
  changed : Array Bool

namespace Marked

def isChanged (m : Marked) (i : Nat) : Bool := m.changed.getD i false

def set (m : Marked) (i : Nat) (b : Bool) : Marked := { m with changed := m.changed.setIfInBounds i b }

def runEnd (m : Marked) : Nat → Nat → Nat
  | 0, i => i
  | fuel + 1, i => if m.isChanged i then m.runEnd fuel (i + 1) else i

def runStart (m : Marked) : Nat → Nat → Nat
  | 0, i => i
  | fuel + 1, i => if 0 < i && m.isChanged (i - 1) then m.runStart fuel (i - 1) else i

end Marked

structure Run where
  start : Nat
  stop : Nat
deriving DecidableEq, Repr

def Run.isEmpty (r : Run) : Bool := r.start = r.stop

def firstRun (m : Marked) : Run := ⟨0, m.runEnd (m.lines.size + 1) 0⟩

/-- The run behind the line that follows a run; none at the end of the file. -/
def nextRun? (m : Marked) (r : Run) : Option Run :=
  if r.stop = m.lines.size then none
  else some ⟨r.stop + 1, m.runEnd (m.lines.size + 1) (r.stop + 1)⟩

/-- The run before the line in front of a run; at the start of the file the run
itself. -/
def previousRun (m : Marked) (r : Run) : Run :=
  if r.start = 0 then r
  else ⟨m.runStart (m.lines.size + 1) (r.start - 1), r.start - 1⟩

def slideUp? (m : Marked) (r : Run) : Option (Marked × Run) :=
  if 0 < r.start && m.lines[r.start - 1]? = m.lines[r.stop - 1]? then
    let m := (m.set (r.start - 1) true).set (r.stop - 1) false
    some (m, ⟨m.runStart (m.lines.size + 1) (r.start - 1), r.stop - 1⟩)
  else none

def slideDown? (m : Marked) (r : Run) : Option (Marked × Run) :=
  if r.stop < m.lines.size && m.lines[r.start]? = m.lines[r.stop]? then
    let m := (m.set r.start false).set r.stop true
    some (m, ⟨r.start + 1, m.runEnd (m.lines.size + 1) (r.stop + 1)⟩)
  else none

structure Moving where
  file : Marked
  run : Run
  beside : Run
  /-- Where the run last ended beside a change of the other file. -/
  aligned : Option Nat := none

namespace Moving

def up (other : Marked) : Nat → Moving → Moving
  | 0, k => k
  | fuel + 1, k =>
    match slideUp? k.file k.run with
    | some (file, run) => up other fuel { k with file, run, beside := previousRun other k.beside }
    | none => k

/-- Takes down where the run ends if a change of the other file is beside it. -/
def noted (k : Moving) : Moving :=
  if k.beside.isEmpty then k else { k with aligned := some k.run.stop }

def down (other : Marked) : Nat → Moving → Moving
  | 0, k => k
  | fuel + 1, k =>
    match slideDown? k.file k.run with
    | some (file, run) =>
      let beside := (nextRun? other k.beside).getD k.beside
      down other fuel { k with file, run, beside }.noted
    | none => k

/-- Moves up and down until the run joins no other; also the highest end. -/
def settle (other : Marked) : Nat → Moving → Moving × Nat
  | 0, k => (k, k.run.stop)
  | fuel + 1, k =>
    let size := k.run.stop - k.run.start
    let limit := k.file.lines.size + 1
    let top := (up other limit { k with aligned := none })
    let bottom := down other limit top.noted
    if bottom.run.stop - bottom.run.start = size then (bottom, top.run.stop)
    else settle other fuel bottom

/-- Moves up until a condition holds. -/
def upUntil (other : Marked) (arrived : Moving → Bool) : Nat → Moving → Moving
  | 0, k => k
  | fuel + 1, k =>
    if arrived k then k
    else
      match slideUp? k.file k.run with
      | some (file, run) =>
        upUntil other arrived fuel { k with file, run, beside := previousRun other k.beside }
      | none => k

end Moving

/-! ## Indentation -/

/-- How far a line is indented; none for a blank line. -/
def indent? (column : Nat) : Bytes → Option Nat
  | [] => none
  | b :: rest =>
    if 200 ≤ column then some 200
    else if b = 32 then indent? (column + 1) rest
    else if b = 9 then indent? (column + 8 - column % 8) rest
    else if 10 ≤ b && b ≤ 13 then indent? column rest
    else some column

/-- The indentation of the first line that is not blank, and how many blank lines stand
before it; after twenty blank lines it counts as none. -/
def firstIndent : Nat → List Bytes → Option Nat × Nat
  | _, [] => (none, 0)
  | 0, _ => (some 0, 0)
  | fuel + 1, l :: ls =>
    match indent? 0 l with
    | some n => (some n, 0)
    | none =>
      if fuel = 0 then (some 0, 1)
      else
        let (n, blanks) := firstIndent fuel ls
        (n, blanks + 1)

/-- How bad a place between two lines is for a change to begin or end: an indentation,
which counts more, and a penalty. -/
structure Badness where
  indent : Int := 0
  penalty : Int := 0

/-- The badness of the place in front of line `i`, on top of another. -/
def Badness.add (s : Badness) (ls : List Bytes) (i : Nat) : Badness :=
  let (before?, blanksBefore) := firstIndent 20 (ls.take i).reverse
  let (after?, blanksAfter) := firstIndent 20 (ls.drop (i + 1))
  let here? := (ls[i]?).bind (indent? 0)
  let atEnd := ls.length ≤ i
  let following : Int := if here?.isNone then 1 + Int.ofNat blanksAfter else 0
  let blanks : Int := Int.ofNat blanksBefore + following
  let indent? := here?.or after?
  let start : Int := if before?.isNone && blanksBefore = 0 then 1 else 0
  let finish : Int := if atEnd then 21 else 0
  let relative : Int := match indent?, before? with
    | some n, some before =>
      if before < n then if blanks ≠ 0 then 10 else -4
      else if n = before then 0
      else if after?.any (n < ·) then if blanks ≠ 0 then 17 else 24
      else if blanks ≠ 0 then 17 else 23
    | _, _ => 0
  { indent := s.indent + ((indent?.map Int.ofNat).getD (-1))
    penalty := s.penalty + start + finish - 30 * blanks + 6 * following + relative }

def Badness.le (s t : Badness) : Bool :=
  let sign : Int := if t.indent < s.indent then 1 else if s.indent < t.indent then -1 else 0
  60 * sign + (s.penalty - t.penalty) ≤ 0

/-- The end of a run of `size` lines where it looks best, among the ends `first` to
`last`; of equal ones the last. -/
def bestEnd (ls : List Bytes) (size first last : Nat) : Nat :=
  let badness (i : Nat) : Badness := (({} : Badness).add ls i).add ls (i - size)
  let ends := (List.range (last + 1 - first)).map (· + first)
  (ends.foldl (fun (best : Option (Nat × Badness)) i =>
    let s := badness i
    match best with
    | some (_, t) => if s.le t then some (i, s) else best
    | none => some (i, s)) none).elim last (·.1)

/-! ## All runs of a file -/

/-- Moves one run to its place. -/
def place (byIndent : Bool) (other : Marked) (k : Moving) : Moving :=
  let limit := k.file.lines.size + 1
  let (k, earliest) := k.settle other limit
  if k.run.stop = earliest then k
  else if k.aligned.isSome then k.upUntil other (fun k => !k.beside.isEmpty) limit
  else if byIndent then
    let size := k.run.stop - k.run.start
    let first := max (max earliest (k.run.stop - size - 1)) (k.run.stop - 100)
    let best := bestEnd k.file.lines.toList size first k.run.stop
    k.upUntil other (fun k => k.run.stop ≤ best) limit
  else k

def placeAll (byIndent : Bool) (other : Marked) : Nat → Marked → Run → Run → Marked
  | 0, m, _, _ => m
  | fuel + 1, m, r, beside =>
    let k : Moving := { file := m, run := r, beside }
    let k := if r.isEmpty then k else place byIndent other k
    match nextRun? k.file k.run, nextRun? other k.beside with
    | some r, some beside => placeAll byIndent other fuel k.file r beside
    | _, _ => k.file

/-- Moves the changes of one file to where they are shown. -/
def shifted (byIndent : Bool) (m other : Marked) : Marked :=
  placeAll byIndent other (m.lines.size + 2) m (firstRun m) (firstRun other)

def shiftedBoth (byIndent : Bool) (old new : Marked) : Marked × Marked :=
  let old := shifted byIndent old new
  (old, shifted byIndent new old)

end PromptDoc.Tool.LineShift
