/-
# PromptDoc.Glob.Expression — patterns as regular expressions

A pattern that is more than plain characters with a star or directories beside
them is compared with paths by a regular expression over bytes. The expression of
a pattern that ends in an extension stands by itself; those of all other patterns
are put into one set, where each has a number (`Glob.comparison`).

An expression may be nested at most 250 deep. A group, a class, a repetition, a
sequence or choice of more than one part, and several ranges in a class count one
each (`Glob.depth`). `Glob.nestingDefect?` finds what is nested deeper.
-/
import PromptDoc.Glob.Match

namespace PromptDoc

set_option autoImplicit false

namespace Glob

/-! ## The text of an expression -/

/-- Whether a character stands for itself only behind a backslash. -/
def isReserved (c : Char) : Bool :=
  "\\.+*?()|[]^$#&-~".toList.contains c || c = '\x7b' || c = '\x7d'

/-- A byte that stands for itself. -/
def byteText (b : UInt8) : Text :=
  if b < 0x80 then
    let c := Char.ofNat b.toNat
    if isReserved c then ['\x5c', c] else [c]
  else "\\x".toList ++ Nat.toDigits 16 b.toNat

def charText (c : Char) : Text := (Text.encode [c]).flatMap byteText

def rangeText : Char × Char → Text
  | (first, last) => if first = last then charText first else charText first ++ ['-'] ++ charText last

mutual

def tokenText : Token → Text
  | .literal c => charText c
  | .any => ['.']
  | .many => ".*".toList
  | .leading => "(?:/?|.*/)".toList
  | .trailing => "/.*".toList
  | .between => "(?:/|/.*/)".toList
  | .oneOf negated ranges =>
    ['['] ++ (if negated then ['^'] else []) ++ ranges.flatMap rangeText ++ [']']
  | .alternatives branches =>
    if areBlank branches then []
    else "(?:".toList ++ ['|'].intercalate (branchTexts branches) ++ [')']

def sequenceText : List Token → Text
  | [] => []
  | t :: ts => tokenText t ++ sequenceText ts

/-- The expressions of the branches of a group, without the blank ones. -/
def branchTexts : List (List Token) → List Text
  | [] => []
  | branch :: branches =>
    (if isBlankSequence branch then [] else [sequenceText branch]) ++ branchTexts branches

end

/-! ## The depth of an expression -/

/-- The depth of parts that stand beside each other. -/
def nest : List Nat → Nat
  | [] => 0
  | [depth] => depth
  | depths => depths.foldl max 0 + 1

mutual

/-- The depths of the parts that a token adds to a sequence. -/
def parts : Token → List Nat
  | .literal c => (Text.encode [c]).map fun _ => 0
  | .any => [0]
  | .many => [1]
  | .leading => [4]
  | .trailing => [0, 1]
  | .between => [4]
  | .oneOf _ ranges =>
    [nest ((ranges.flatMap fun (first, last) => byteRanges first last).map fun _ => 0) + 1]
  | .alternatives branches =>
    if areBlank branches then [] else [nest (branchDepths branches) + 1]

def sequenceParts : List Token → List Nat
  | [] => []
  | t :: ts => parts t ++ sequenceParts ts

/-- The depths of the branches of a group, without the blank ones. -/
def branchDepths : List (List Token) → List Nat
  | [] => []
  | branch :: branches =>
    (if isBlankSequence branch then [] else [nest (sequenceParts branch)]) ++ branchDepths branches

end

/-- The deepest that an expression may be nested. -/
def maxDepth : Nat := 250

/-! ## How patterns are compared -/

/-- How a pattern is compared with paths. -/
inductive Comparison where
  /-- By its plain characters. -/
  | plain
  /-- By an expression of its own, tried on names with its extension. -/
  | byExtension
  /-- By an expression of the set. -/
  | byExpression
deriving DecidableEq, Repr

def isPlainText (ts : List Token) : Bool := !ts.isEmpty && ts.all (isLiteral [])

/-- Whether tokens are what a path begins with. -/
def isBeginning (ts : List Token) : Bool :=
  match ts.reverse with
  | .many :: before => isPlainText before
  | .trailing :: before => before.all (isLiteral [])
  | _ => isPlainText ts

/-- Whether tokens are what a path ends with; a lone slash is not enough. -/
def isEnding (ts : List Token) : Bool :=
  match ts with
  | .leading :: .literal _ :: rest => rest.all (isLiteral [])
  | ts =>
    match afterMany (afterLeading ts) with
    | [.literal '/'] => false
    | rest => isPlainText rest

end Glob

open Glob

/-- How a glob is compared with paths. -/
def Glob.comparison (g : Glob) : Comparison :=
  let ts := g.tokens
  if isPlainName ts || isPlainText ts || isAnyWithExtension ts || isBeginning ts || isEnding ts then
    .plain
  else if endsInExtension ts then .byExtension
  else .byExpression

def Glob.expression (g : Glob) : Text :=
  let body := match g.tokens with
    | [.leading] => ".*".toList
    | ts => sequenceText ts
  "(?-u)^".toList ++ body ++ ['$']

/-- How deep the expression of a glob is nested. Both its ends are parts of it. -/
def Glob.depth (g : Glob) : Nat := nest ([0, 0, 0] ++ sequenceParts g.tokens)

def Glob.isTooDeep (g : Glob) : Bool := maxDepth < g.depth

namespace Glob

inductive NestingDefect where
  /-- One that stands by itself. -/
  | alone (expression : Text)
  /-- One of the set, by its number. -/
  | inSet (number : Nat)
deriving DecidableEq, Repr

def NestingDefect.message : NestingDefect → Text
  | .alone expression => "error parsing glob '".toList ++ expression ++ "': error parsing pattern 0".toList
  | .inSet number => "error parsing pattern ".toList ++ Text.ofNat number

/-- The first expression of globs that is nested too deep, first among those that
stand by themselves. -/
def nestingDefect? (globs : List Glob) : Option NestingDefect :=
  match globs.find? fun g => g.comparison = .byExtension && g.isTooDeep with
  | some g => some (.alone g.expression)
  | none =>
    ((globs.filter fun g => g.comparison = .byExpression).findIdx? Glob.isTooDeep).map .inSet

end Glob

end PromptDoc
