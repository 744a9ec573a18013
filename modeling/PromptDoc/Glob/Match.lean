/-
# PromptDoc.Glob.Match — which paths a pattern matches

A pattern is matched against the bytes of a path. Each token takes something off
the front and leaves a rest; since it may leave several rests, the matcher carries
the list of them, each once (`Glob.restsAll`), and the pattern matches when the
empty rest is among them.

Patterns that depend on the name of a path only (`Glob.isByName`) never match a
path that ends in the component `..`, since such a path has no name.
-/
import PromptDoc.Glob.Basic
import PromptDoc.Text.Utf8

namespace PromptDoc

set_option autoImplicit false

namespace Glob

def slash : UInt8 := 47

/-- The byte ranges of a range of characters. Both ends count byte by byte, and
the last byte of the first end begins the range that the first byte of the last
end closes. -/
def byteRanges (first last : Char) : List (UInt8 × UInt8) :=
  let single (b : UInt8) : UInt8 × UInt8 := (b, b)
  if first = last then (Text.encode [first]).map single
  else
    match (Text.encode [first]).reverse, Text.encode [last] with
    | a :: before, b :: after => before.reverse.map single ++ [(a, b)] ++ after.map single
    | _, _ => []

def inRanges (ranges : List (Char × Char)) (b : UInt8) : Bool :=
  ranges.any fun (first, last) => (byteRanges first last).any fun (low, high) => low ≤ b && b ≤ high

/-- Every rest of a path, the path itself first and the empty one last: `List.tails`, which core does
not have. -/
def tails : Bytes → List Bytes
  | [] => [[]]
  | b :: s => (b :: s) :: tails s

/-- The rests that begin after a slash. -/
def afterSlashes (s : Bytes) : List Bytes :=
  (tails s).filterMap fun
    | b :: rest => if b = slash then some rest else none
    | [] => none

def afterSlash : Bytes → List Bytes
  | [] => []
  | b :: s => if b = slash then [s] else []

mutual

/-- Whether a token stands for nothing: a group without anything in it. -/
def isBlank : Token → Bool
  | .alternatives branches => areBlank branches
  | _ => false

def isBlankSequence : List Token → Bool
  | [] => true
  | t :: ts => isBlank t && isBlankSequence ts

def areBlank : List (List Token) → Bool
  | [] => true
  | branch :: branches => isBlankSequence branch && areBlank branches

end

mutual

/-- What a token can leave of a path. Blank branches of a group do not count,
unless there are no others. -/
def rests : Token → Bytes → List Bytes
  | .literal c, s => ((Text.encode [c]).isPrefixOf? s).toList
  | .any, s => s.tail?.toList
  | .many, s => tails s
  | .leading, s => s :: afterSlashes s
  | .trailing, s => (afterSlash s).flatMap tails
  | .between, s => (afterSlash s).flatMap fun rest => rest :: afterSlashes rest
  | .oneOf _ _, [] => []
  | .oneOf negated ranges, b :: s => if inRanges ranges b = negated then [] else [s]
  | .alternatives branches, s => if areBlank branches then [s] else restsAny branches s

def restsAll : List Token → List Bytes → List Bytes
  | [], ss => ss
  | t :: ts, ss => restsAll ts (ss.flatMap (rests t)).eraseDups

def restsAny : List (List Token) → Bytes → List Bytes
  | [], _ => []
  | branch :: branches, s =>
    (if isBlankSequence branch then [] else restsAll branch [s]) ++ restsAny branches s

end

/-- Whether a token is a character other than the given ones. -/
def isLiteral (except : List Char) : Token → Bool
  | .literal c => !except.contains c
  | _ => false

/-- The tokens without directories at the beginning. -/
def afterLeading : List Token → List Token
  | .leading :: ts => ts
  | ts => ts

/-- The tokens without a star at the beginning. -/
def afterMany : List Token → List Token
  | .many :: ts => ts
  | ts => ts

/-- Whether tokens are a plain name in any directory. -/
def isPlainName : List Token → Bool
  | .leading :: t :: ts => (t :: ts).all (isLiteral ['/'])
  | _ => false

/-- Whether tokens are any name with a given extension. -/
def isAnyWithExtension (ts : List Token) : Bool :=
  match afterLeading ts with
  | .many :: .literal '.' :: extension => extension.all (isLiteral ['.', '/'])
  | _ => false

/-- The characters that tokens end with. -/
def ending (ts : List Token) : List Token := (ts.reverse.takeWhile (isLiteral [])).reverse

/-- Whether the characters that tokens end with hold an extension: a dot with no
slash after it. -/
def endsInExtension (ts : List Token) : Bool :=
  match (ending ts).reverse.find? fun t => !isLiteral ['.', '/'] t with
  | some (.literal '.') => true
  | _ => false

/-- Whether tokens match only paths that have a name. A plain ending is compared
with the path as a whole; any other pattern that ends in an extension is not tried
on paths whose name has another. -/
def isByName (ts : List Token) : Bool :=
  isPlainName ts || isAnyWithExtension ts ||
    (!(afterMany (afterLeading ts)).all (isLiteral []) && endsInExtension ts)

/-- Whether a path has a name: its last component is not `..`. -/
def hasName (path : Text) : Bool := (path.splitOn '/').getLast? != some ['.', '.']

end Glob

/-- Whether a glob matches a path. A lone `**` matches every path. -/
def Glob.matches (g : Glob) (path : Text) : Bool :=
  match g.tokens with
  | [.leading] => true
  | ts =>
    (Glob.hasName path || !Glob.isByName ts) &&
      (Glob.restsAll ts [Text.encode path]).contains []

end PromptDoc
