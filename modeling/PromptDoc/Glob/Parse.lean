/-
# PromptDoc.Glob.Parse — reading a pattern

A pattern is read from left to right. Groups may be nested; a comma outside a
group stands for itself. In a class, a bracket or a hyphen that comes first
stands for itself, and so does a hyphen that comes last.
-/
import PromptDoc.Glob.Basic

namespace PromptDoc

namespace Glob

set_option autoImplicit false

/-- A class that is being read. -/
structure OpenClass where
  negated : Bool
  /-- The ranges so far, the last one first. -/
  ranges : List (Char × Char) := []
  /-- Whether nothing of the class has been read yet. -/
  fresh : Bool := true
  /-- Whether a hyphen waits for the end of its range. -/
  hyphen : Bool := false

namespace OpenClass

/-- The class with one more character. -/
def push (k : OpenClass) (c : Char) : Except Defect OpenClass :=
  if c = '-' && !k.fresh && !k.hyphen then .ok { k with hyphen := true }
  else
    match k.hyphen, k.ranges with
    | true, (first, _) :: ranges =>
      if c < first then .error (.invalidRange first c)
      else .ok { k with ranges := (first, c) :: ranges, hyphen := false }
    | _, _ => .ok { k with ranges := (c, c) :: k.ranges, fresh := false, hyphen := false }

def token (k : OpenClass) : Token :=
  .oneOf k.negated ((if k.hyphen then ('-', '-') :: k.ranges else k.ranges).reverse)

end OpenClass

/-- A group that is being read: its finished branches and the current one, each
in reverse. -/
structure OpenGroup where
  branches : List (List Token) := []
  tokens : List Token := []

/-- How far a pattern has been read: the innermost group that is open, which at
the top level is the pattern itself, the groups around it, the class that is
open, and the character read last. -/
structure Reader where
  inner : OpenGroup := {}
  outer : List OpenGroup := []
  openClass : Option OpenClass := none
  before : Option Char := none

namespace Reader

def push (r : Reader) (t : Token) : Reader :=
  { r with inner := { r.inner with tokens := t :: r.inner.tokens } }

def after (r : Reader) (c : Char) : Reader := { r with before := some c }

def manyTwice (r : Reader) : Reader := (r.push .many).push .many |>.after '*'

/-- Puts a token for directories in the place of the slash before it; directories
that the pattern begins with stay as they are. -/
def replaceSlash (r : Reader) (t : Token) : Reader :=
  match r.inner.tokens with
  | [] => r
  | .leading :: _ => r
  | _ :: tokens => { r with inner := { r.inner with tokens := t :: tokens } }

def openGroup (r : Reader) : Reader := { r with inner := {}, outer := r.inner :: r.outer }

/-- Begins a branch of a group; outside groups a comma stands for itself. -/
def nextBranch (r : Reader) : Reader :=
  if r.outer.isEmpty then r.push (.literal ',')
  else { r with inner := { branches := r.inner.tokens.reverse :: r.inner.branches } }

def closeGroup (r : Reader) : Except Defect Reader :=
  match r.outer with
  | [] => .error .unopenedGroup
  | group :: outer =>
    let branches := (r.inner.tokens.reverse :: r.inner.branches).reverse
    .ok ({ r with inner := group, outer }.push (.alternatives branches))

/-- One more character of a pattern that is neither a star nor the beginning of a
class. -/
def plain (r : Reader) (c : Char) : Except Defect Reader :=
  match c with
  | '?' => .ok (r.push .any)
  | '\x7b' => .ok r.openGroup
  | '\x7d' => r.closeGroup
  | ',' => .ok r.nextBranch
  | c => .ok (r.push (.literal c))

/-- Goes on after two stars, of which the text is what follows. -/
def twoStars (r : Reader) (cs : Text) : Reader × Text :=
  if r.inner.tokens = [] then
    match cs with
    | [] => (r.push .leading |>.after '*', [])
    | '/' :: cs => (r.push .leading |>.after '/', cs)
    | c :: cs => (r.manyTwice, c :: cs)
  else if r.before = some '/' then
    match cs with
    | [] => (r.replaceSlash .trailing |>.after '*', [])
    | '/' :: cs => (r.replaceSlash .between |>.after '/', cs)
    | c :: cs =>
      if (c = ',' || c = '\x7d') && !r.outer.isEmpty then
        (r.replaceSlash .trailing |>.after '*', c :: cs)
      else (r.manyTwice, c :: cs)
  else (r.manyTwice, cs)

/-- Begins a class, of which the text is what follows its bracket. -/
def openBracket (r : Reader) : Text → Reader × Text
  | '!' :: cs => ({ r with openClass := some { negated := true } }, cs)
  | '^' :: cs => ({ r with openClass := some { negated := true } }, cs)
  | cs => ({ r with openClass := some { negated := false } }, cs)

/-- One more character of a class. -/
def classNext (r : Reader) (k : OpenClass) (c : Char) : Except Defect Reader :=
  if c = ']' && !k.fresh then .ok ({ r with openClass := none }.push k.token |>.after ']')
  else (k.push c).map fun k => { r with openClass := some k }

/-- Reads a character and what belongs to it of the text that follows: how far the
pattern has been read then, and what is left of the text. -/
def next (r : Reader) (c : Char) (cs : Text) : Except Defect (Reader × Text) :=
  match r.openClass with
  | some k => (r.classNext k c).map fun r => (r, cs)
  | none =>
    if c = '[' then .ok (r.openBracket cs)
    else if c = '*' then
      match cs with
      | '*' :: cs => .ok (r.twoStars cs)
      | cs => .ok (r.push .many |>.after '*', cs)
    else (r.plain c).map fun r => (r.after c, cs)

theorem length_twoStars (r : Reader) (cs : Text) : (r.twoStars cs).2.length ≤ cs.length := by
  unfold twoStars
  split
  · split <;> simp
  · split
    · split
      · simp
      · simp
      · split <;> simp
    · simp

theorem length_openBracket (r : Reader) (cs : Text) :
    (r.openBracket cs).2.length ≤ cs.length := by
  unfold openBracket
  split <;> simp

/-- What is left of a pattern is shorter. -/
theorem length_of_next {r r' : Reader} {c : Char} {cs rest : Text}
    (h : r.next c cs = .ok (r', rest)) : rest.length ≤ cs.length := by
  unfold next at h
  split at h
  · rename_i k _
    cases step : r.classNext k c with
    | error e => simp [step, Except.map] at h
    | ok r'' =>
      simp only [step, Except.map, Except.ok.injEq, Prod.mk.injEq] at h
      exact h.2 ▸ Nat.le_refl _
  · split at h
    · have shorter := length_openBracket r cs
      rw [Except.ok.inj h] at shorter
      exact shorter
    · split at h
      · split at h
        · rename_i cs
          have shorter := length_twoStars r cs
          rw [Except.ok.inj h] at shorter
          exact Nat.le_succ_of_le shorter
        · cases h
          exact Nat.le_refl _
      · cases step : r.plain c with
        | error e => simp [step, Except.map] at h
        | ok r'' =>
          simp only [step, Except.map, Except.ok.injEq, Prod.mk.injEq] at h
          exact h.2 ▸ Nat.le_refl _

def read (r : Reader) : Text → Except Defect (List Token)
  | [] =>
    if r.openClass.isSome then .error .unclosedClass
    else if r.outer.isEmpty then .ok r.inner.tokens.reverse
    else .error .unclosedGroup
  | c :: cs =>
    match h : r.next c cs with
    | .error e => .error e
    | .ok (r, rest) =>
      have := Nat.lt_succ_of_le (length_of_next h)
      read r rest
termination_by t => t.length

end Reader

end Glob

def Glob.ofText (t : Text) : Except Glob.Defect Glob :=
  (Glob.Reader.read {} t).map Glob.mk

end PromptDoc
