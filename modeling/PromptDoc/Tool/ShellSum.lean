/-
# PromptDoc.Tool.ShellSum — sums in shell scripts

A sum consists of numbers, variables, parentheses and the operators `+ - * / %`, of
which the last three bind tighter. Division drops the fraction.
-/
import PromptDoc.Tool.Call

namespace PromptDoc.Tool.ShellSum

set_option autoImplicit false

inductive Part where
  | number (n : Int)
  | operator (c : Char)
deriving DecidableEq, Repr

/-- The parts of a sum; `skip` characters have been read already. -/
def parts (value : Text → Int) : Nat → Text → List Part
  | _, [] => []
  | skip + 1, _ :: cs => parts value skip cs
  | 0, c :: cs =>
    if c.isDigit then
      let digits := c :: cs.takeWhile Char.isDigit
      .number (Int.ofNat (number digits)) :: parts value (digits.length - 1) cs
    else if c.isAlpha || c = '_' then
      let name := c :: cs.takeWhile fun c => c.isAlphanum || c = '_'
      .number (value name) :: parts value (name.length - 1) cs
    else if c = ' ' || c = '\t' || c = '$' then parts value 0 cs
    else .operator c :: parts value 0 cs

mutual

def terms : Nat → List Part → Option (Int × List Part)
  | 0, _ => none
  | fuel + 1, ps => do
    let (first, rest) ← factors fuel ps
    addTo fuel first rest

def addTo : Nat → Int → List Part → Option (Int × List Part)
  | 0, _, _ => none
  | fuel + 1, a, ps =>
    match ps with
    | .operator '+' :: rest => do
      let (b, rest) ← factors fuel rest
      addTo fuel (a + b) rest
    | .operator '-' :: rest => do
      let (b, rest) ← factors fuel rest
      addTo fuel (a - b) rest
    | rest => some (a, rest)

def factors : Nat → List Part → Option (Int × List Part)
  | 0, _ => none
  | fuel + 1, ps => do
    let (first, rest) ← factor fuel ps
    timesTo fuel first rest

def timesTo : Nat → Int → List Part → Option (Int × List Part)
  | 0, _, _ => none
  | fuel + 1, a, ps =>
    match ps with
    | .operator '*' :: rest => do
      let (b, rest) ← factor fuel rest
      timesTo fuel (a * b) rest
    | .operator '/' :: rest => do
      let (b, rest) ← factor fuel rest
      if b = 0 then none else timesTo fuel (a.tdiv b) rest
    | .operator '%' :: rest => do
      let (b, rest) ← factor fuel rest
      if b = 0 then none else timesTo fuel (a.tmod b) rest
    | rest => some (a, rest)

/-- A number, a sign in front of a factor, or a sum in parentheses. -/
def factor : Nat → List Part → Option (Int × List Part)
  | 0, _ => none
  | fuel + 1, ps =>
    match ps with
    | .number n :: rest => some (n, rest)
    | .operator '-' :: rest => (factor fuel rest).map fun (a, rest) => (-a, rest)
    | .operator '+' :: rest => factor fuel rest
    | .operator '(' :: rest =>
      match terms fuel rest with
      | some (a, .operator ')' :: rest) => some (a, rest)
      | _ => none
    | _ => none

end

def value? (value : Text → Int) (t : Text) : Option Int :=
  let ps := parts value 0 t
  match terms (4 * ps.length + 4) ps with
  | some (a, []) => some a
  | _ => none

end PromptDoc.Tool.ShellSum
