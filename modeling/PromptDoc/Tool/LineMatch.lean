/-
# PromptDoc.Tool.LineMatch — which lines of two files change

Two sequences of lines are compared by the middle of a shortest edit path: paths are
followed from both ends, one edit further in each step, until they meet
(`middle`), and the two halves are compared in the same way (`changes`). Lines that
the other file does not have are set aside before that, since they change in any
case (`Policy`).
-/
import PromptDoc.Tool.Call

namespace PromptDoc.Tool.LineMatch

set_option autoImplicit false

structure Box where
  left : Nat
  leftEnd : Nat
  right : Nat
  rightEnd : Nat

def agree (a b : Array Bytes) (box : Box) : Nat → Nat → Nat → Nat
  | 0, _, _ => 0
  | fuel + 1, i, j =>
    if i < box.leftEnd && j < box.rightEnd && a[i]? = b[j]? then agree a b box fuel (i + 1) (j + 1) + 1
    else 0

/-- How many lines agree before a place in each sequence. -/
def agreeBefore (a b : Array Bytes) (box : Box) : Nat → Nat → Nat → Nat
  | 0, _, _ => 0
  | fuel + 1, i, j =>
    if box.left < i && box.right < j && a[i - 1]? = b[j - 1]? then
      agreeBefore a b box fuel (i - 1) (j - 1) + 1
    else 0

/-- How far paths reach on each diagonal, from the lowest diagonal to the highest. A
diagonal is the distance between the places in the two sequences; its reach stands
`offset` places behind its number. -/
structure Front where
  reaches : Array Int
  offset : Int
  low : Int
  high : Int

namespace Front

def single (a b : Array Bytes) (diagonal place never : Int) : Front where
  reaches := (Array.replicate (a.size + b.size + 5) never).setIfInBounds
    (diagonal + Int.ofNat b.size + 2).toNat place
  offset := Int.ofNat b.size + 2
  low := diagonal
  high := diagonal

def reach (f : Front) (diagonal : Int) : Int := f.reaches.getD (diagonal + f.offset).toNat 0

def set (f : Front) (diagonal place : Int) : Front :=
  { f with reaches := f.reaches.setIfInBounds (diagonal + f.offset).toNat place }

/-- Reaches one diagonal further on both sides, or one less at the border of the box;
what is not reached is `never`. -/
def widen (f : Front) (least most never : Int) : Front :=
  let f := if least < f.low then { f.set (f.low - 2) never with low := f.low - 1 }
    else { f with low := f.low + 1 }
  if f.high < most then { f.set (f.high + 2) never with high := f.high + 1 }
  else { f with high := f.high - 1 }

/-- Every other diagonal, the highest first. -/
def diagonals (f : Front) : List Int :=
  (List.range ((f.high - f.low).toNat / 2 + 1)).map (fun i => f.high - 2 * Int.ofNat i)
    |>.filter (f.low ≤ ·)

end Front

/-- The place where two paths meet, or the fronts from both ends after one more edit. -/
def advance (a b : Array Bytes) (box : Box) (odd : Bool) (forward backward : Front) :
    Except (Nat × Nat) (Front × Front) := do
  let least : Int := Int.ofNat box.left - Int.ofNat box.rightEnd
  let most : Int := Int.ofNat box.leftEnd - Int.ofNat box.right
  let forward := forward.widen least most (-1)
  let forward ← forward.diagonals.foldlM (fun (f : Front) d =>
    let before := f.reach (d - 1)
    let after := f.reach (d + 1)
    let i := if after ≤ before then before + 1 else after
    let j := i - d
    let n := if 0 ≤ j then agree a b box a.size i.toNat j.toNat else 0
    let i := i + Int.ofNat n
    if odd && backward.low ≤ d && d ≤ backward.high && backward.reach d ≤ i then
      Except.error (i.toNat, (i - d).toNat)
    else Except.ok (f.set d i)) forward
  let backward := backward.widen least most (Int.ofNat (a.size + b.size + 2))
  let backward ← backward.diagonals.foldlM (fun (f : Front) d =>
    let before := f.reach (d - 1)
    let after := f.reach (d + 1)
    let i := if before < after then before else after - 1
    let j := i - d
    let n := if 0 ≤ j && 0 ≤ i then agreeBefore a b box a.size i.toNat j.toNat else 0
    let i := i - Int.ofNat n
    if !odd && forward.low ≤ d && d ≤ forward.high && i ≤ forward.reach d then
      Except.error (i.toNat, (i - d).toNat)
    else Except.ok (f.set d i)) backward
  return (forward, backward)

/-- Follows paths until they meet; `fuel` bounds the edits. -/
def meet (a b : Array Bytes) (box : Box) (odd : Bool) : Nat → Front → Front → Nat × Nat
  | 0, _, _ => (box.left, box.right)
  | fuel + 1, forward, backward =>
    match advance a b box odd forward backward with
    | .error place => place
    | .ok (forward, backward) => meet a b box odd fuel forward backward

def middle (a b : Array Bytes) (box : Box) : Nat × Nat :=
  let first : Int := Int.ofNat box.left - Int.ofNat box.right
  let last : Int := Int.ofNat box.leftEnd - Int.ofNat box.rightEnd
  meet a b box ((first - last) % 2 ≠ 0) (a.size + b.size + 2)
    (Front.single a b first (Int.ofNat box.left) (-1))
    (Front.single a b last (Int.ofNat box.leftEnd) (Int.ofNat (a.size + b.size + 2)))

/-- The places that change in a box of both sequences; `fuel` bounds how often boxes
are halved. -/
def changes (a b : Array Bytes) : Nat → Box → List Nat × List Nat
  | 0, _ => ([], [])
  | fuel + 1, box =>
    let n := agree a b box a.size box.left box.right
    let box := { box with left := box.left + n, right := box.right + n }
    let n := agreeBefore a b box a.size box.leftEnd box.rightEnd
    let box := { box with leftEnd := box.leftEnd - n, rightEnd := box.rightEnd - n }
    if box.left = box.leftEnd then
      ([], (List.range (box.rightEnd - box.right)).map (· + box.right))
    else if box.right = box.rightEnd then
      ((List.range (box.leftEnd - box.left)).map (· + box.left), [])
    else
      let (i, j) := middle a b box
      let (left, right) := changes a b fuel { box with leftEnd := i, rightEnd := j }
      let (left', right') := changes a b fuel { box with left := i, right := j }
      (left ++ left', right ++ right')

/-! ## Lines set aside -/

/-- Which lines are set aside. -/
inductive Policy where
  /-- Those that the other file does not have. -/
  | unmatched
  /-- Also those that it has very often, among lines that it does not have. -/
  | frequent
deriving DecidableEq, Repr

/-- How often the other file has a line: never, several times, or very often. -/
inductive Frequency where
  | never
  | some
  | often
deriving DecidableEq, Repr

/-- A power of two near the square root of a number. -/
def rootOf : Nat → Nat → Nat
  | 0, _ => 1
  | fuel + 1, n => if n = 0 then 1 else 2 * rootOf fuel (n / 4)

/-- How many lines that never and very often match stand at the beginning of a list. -/
def runOf : List Frequency → Nat × Nat
  | .never :: rest => ((runOf rest).1 + 1, (runOf rest).2)
  | .often :: rest => ((runOf rest).1, (runOf rest).2 + 1)
  | _ => (0, 0)

/-- Whether a frequent line is set aside between lines `before`, read backwards, and
`after`. -/
def isDropped (before after : List Frequency) : Bool :=
  let (never, often) := runOf (before.take 100)
  let (never', often') := runOf (after.take 100)
  never ≠ 0 && never' ≠ 0 &&
    (often + often' + 2) * 4 < (often + often' + 2) + (never + never')

/-- Which of the lines with such frequencies are compared. -/
def compared (policy : Policy) : List Frequency → List Frequency → List Bool
  | _, [] => []
  | before, f :: after =>
    (match f with
    | .never => false
    | .some => true
    | .often => policy = .unmatched || !isDropped before after) ::
      compared policy (f :: before) after

def frequency (limit : Nat) (other : List Bytes) (line : Bytes) : Frequency :=
  let n := other.count line
  if n = 0 then .never else if limit ≤ n then .often else .some

/-- How many lines two files both begin with, and how many of the rest they both end
with. -/
def sharedEnds (old new : List Bytes) : Nat × Nat :=
  let a := old.toArray
  let b := new.toArray
  let whole : Box := ⟨0, a.size, 0, b.size⟩
  let front := agree a b whole a.size 0 0
  (front, agreeBefore a b { whole with left := front, right := front } a.size a.size b.size)

/-- Which lines of both files change. The lines that both begin and end with stay. -/
def changed (policy : Policy) (old new : List Bytes) : List Bool × List Bool :=
  let (front, back) := sharedEnds old new
  let inner (ls : List Bytes) : List Bytes := (ls.drop front).take (ls.length - front - back)
  let keep (ls other : List Bytes) : List Bool :=
    compared policy [] ((inner ls).map (frequency (rootOf 64 ls.length) other))
  let kept (ls other : List Bytes) : List (Bytes × Nat) :=
    (((inner ls).zipIdx front).zip (keep ls other)).filterMap fun (l, kept) =>
      if kept then some l else none
  let left := kept old new
  let right := kept new old
  let a := (left.map (·.1)).toArray
  let b := (right.map (·.1)).toArray
  let (gone, come) := changes a b (a.size + b.size + 2) ⟨0, a.size, 0, b.size⟩
  let staying (ls : List (Bytes × Nat)) (changed : List Nat) : List Nat :=
    ls.zipIdx.filterMap fun (l, i) => if changed.contains i then none else some l.2
  let flags (ls : List Bytes) (stay : List Nat) : List Bool :=
    (List.range ls.length).map fun i =>
      front ≤ i && i < ls.length - back && !stay.contains i
  (flags old (staying left gone), flags new (staying right come))

end PromptDoc.Tool.LineMatch
