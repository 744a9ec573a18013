/-
# PromptDoc.Tool.LineDiff — what differs between two files, line by line

A difference is an edit script: lines that are kept, taken away or put in, as few
changes as possible (`LineMatch`), shown where a reader expects them (`LineShift`). It
is written in hunks, each with a number of kept lines around what changes, under the
last line before it that looks like the beginning of a definition (`heading?`).
-/
import PromptDoc.Tool.LineMatch
import PromptDoc.Tool.LineShift

namespace PromptDoc

set_option autoImplicit false

inductive LineEdit where
  | keep (line : Bytes)
  | take (line : Bytes)
  | put (line : Bytes)
deriving DecidableEq, Repr

namespace LineEdit

def isKept : LineEdit → Bool
  | .keep _ => true
  | _ => false

def inOld : LineEdit → Bool
  | .put _ => false
  | _ => true

def inNew : LineEdit → Bool
  | .take _ => false
  | _ => true

/-- A line with its mark; a line that no line feed ends is followed by a remark. -/
def shown (e : LineEdit) : Bytes :=
  let (mark, line) : UInt8 × Bytes := match e with
    | .keep line => (32, line)
    | .take line => (45, line)
    | .put line => (43, line)
  if line.getLast? = some 10 then mark :: line
  else mark :: line ++ Text.encode "\n\\ No newline at end of file\n".toList

end LineEdit

namespace LineDiff

/-- The edit script of two files in which lines are marked as changed: what is taken
away comes first. -/
def scriptOf : List (Bytes × Bool) → List (Bytes × Bool) → List LineEdit
  | (a, true) :: old, new => .take a :: scriptOf old new
  | old, (b, true) :: new => .put b :: scriptOf old new
  | (a, false) :: old, (_, false) :: new => .keep a :: scriptOf old new
  | [], new => new.map fun (b, _) => .put b
  | old, [] => old.map fun (a, _) => .take a
termination_by old new => old.length + new.length

/-- How differences are looked for and where they are shown. -/
structure Manner where
  /-- Which lines are set aside. -/
  policy : Tool.LineMatch.Policy
  /-- Whether indentation says where a change is shown. -/
  byIndent : Bool
  /-- Whether the lines that both files begin and end with are kept in any case. -/
  keepsEnds : Bool

def editsOf (manner : Manner) (old new : List Bytes) : List LineEdit :=
  let (gone, come) := Tool.LineMatch.changed manner.policy old new
  let (left, right) := Tool.LineShift.shiftedBoth manner.byIndent
    ⟨old.toArray, gone.toArray⟩ ⟨new.toArray, come.toArray⟩
  scriptOf (old.zip left.changed.toList) (new.zip right.changed.toList)

def edits (manner : Manner) (old new : Bytes) : List LineEdit :=
  let old := Tool.lines old
  let new := Tool.lines new
  if manner.keepsEnds then
    let (front, back) := Tool.LineMatch.sharedEnds old new
    let inner (ls : List Bytes) : List Bytes := (ls.drop front).take (ls.length - front - back)
    (old.take front).map .keep ++ editsOf manner (inner old) (inner new) ++
      (old.drop (old.length - back)).map .keep
  else editsOf manner old new

/-- A part of a script that is shown: how many old and new lines stand before it,
what it is headed by, and its lines. -/
structure Hunk where
  oldBefore : Nat
  newBefore : Nat
  heading : Bytes
  edits : List LineEdit

/-- What a line says at the head of a hunk, if it begins with a letter, an
underscore or a dollar sign. -/
def heading? (line : Bytes) : Option Bytes :=
  let isBlank (b : UInt8) : Bool := b = 32 || (9 ≤ b && b ≤ 13)
  match line with
  | b :: _ =>
    let c := Char.ofNat b.toNat
    if c.isAlpha || c = '_' || c = '$' then
      some ((line.take 80).reverse.dropWhile isBlank).reverse
    else none
  | [] => none

/-- The heading after a line of a script. -/
def headingAfter (heading : Bytes) : LineEdit → Bytes
  | .keep line | .take line => (heading? line).getD heading
  | .put _ => heading

/-- Whether each line of a script is shown: there is a change at most `around` lines
away. -/
def isShown (around : Nat) (script : List LineEdit) : List Bool :=
  let reach (es : List LineEdit) : List Nat :=
    (es.foldl (fun (acc : List Nat × Nat) e =>
      let left := if e.isKept then acc.2 - 1 else around + 1
      (left :: acc.1, left)) ([], 0)).1.reverse
  ((reach script).zip (reach script.reverse).reverse).map fun (a, b) => 0 < a || 0 < b

/-- The hunks of a script whose lines are marked as shown or not. -/
def hunksFrom (oldBefore newBefore : Nat) (heading : Bytes) (current : Option Hunk) :
    List (LineEdit × Bool) → List Hunk
  | [] => current.toList
  | (e, shown) :: rest =>
    let oldNext := if e.inOld then oldBefore + 1 else oldBefore
    let newNext := if e.inNew then newBefore + 1 else newBefore
    let headingNext := headingAfter heading e
    if shown then
      let h := current.getD ⟨oldBefore, newBefore, heading, []⟩
      hunksFrom oldNext newNext headingNext (some { h with edits := h.edits ++ [e] }) rest
    else current.toList ++ hunksFrom oldNext newNext headingNext none rest

def hunks (around : Nat) (script : List LineEdit) : List Hunk :=
  hunksFrom 0 0 [] none (script.zip (isShown around script))

/-- The lines that a hunk takes from a file: the first and how many. -/
def range (before count : Nat) : Text :=
  let first := if count = 0 then before else before + 1
  if count = 1 then Text.ofNat first else Text.ofNat first ++ [','] ++ Text.ofNat count

def Hunk.render (h : Hunk) : Bytes :=
  let old := range h.oldBefore (h.edits.filter (·.inOld)).length
  let new := range h.newBefore (h.edits.filter (·.inNew)).length
  Text.encode ("@@ -".toList ++ old ++ " +".toList ++ new ++ " @@".toList) ++
    (if h.heading = [] then [] else 32 :: h.heading) ++ [10] ++ h.edits.flatMap (·.shown)

/-- Whether contents are not lines of text: there is a zero byte near the start. -/
def isBinary (contents : Bytes) : Bool := (contents.take 8000).contains 0

end LineDiff

end PromptDoc
