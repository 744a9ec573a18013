/-
# PromptDoc.Tool.Pattern — regular expressions for lines

A pattern is matched against the bytes of a line. Matching takes something off the
front and leaves a rest; since a pattern may leave several rests, all of them are
listed (`Pattern.rests`), and the longest match is the one with the shortest rest.
Basic patterns mark groups and repetitions by backslashes, extended ones do not.
-/
import PromptDoc.Text.Utf8

namespace PromptDoc.Tool

set_option autoImplicit false

/-- A regular expression. -/
inductive Pattern where
  | nothing
  /-- A byte that is in one of the ranges, or in none. -/
  | oneOf (negated : Bool) (ranges : List (UInt8 × UInt8))
  | sequence (first rest : Pattern)
  | either (left right : Pattern)
  /-- At least so many times. -/
  | many (least : Nat) (inner : Pattern)
  | optional (inner : Pattern)
  | lineStart
  | lineEnd
deriving Repr

namespace Pattern

def byte (b : UInt8) : Pattern := .oneOf false [(b, b)]

def literal (t : Text) : Pattern := (Text.encode t).foldr (fun b p => .sequence (byte b) p) .nothing

/-- What is left after repeating a step at least `least` times; `fuel` bounds how
often it is repeated. -/
def repeated (step : Bytes → List Bytes) : Nat → Nat → Bytes → List Bytes
  | 0, least, s => if least = 0 then [s] else []
  | fuel + 1, least, s =>
    let further := ((step s).filter fun r => r.length < s.length || 0 < least).flatMap
      (repeated step fuel (least - 1))
    if least = 0 then s :: further else further

/-- What a pattern can leave of the rest `s` of a line of `total` bytes. -/
def rests (total : Nat) (p : Pattern) (s : Bytes) : List Bytes :=
  match p with
  | .nothing => [s]
  | .oneOf negated ranges =>
    match s with
    | b :: rest => if (ranges.any fun (low, high) => low ≤ b && b ≤ high) = negated then [] else [rest]
    | [] => []
  | .sequence first rest => ((rests total first s).flatMap (rests total rest)).eraseDups
  | .either left right => rests total left s ++ rests total right s
  | .many least inner => (repeated (rests total inner) (s.length + least) least s).eraseDups
  | .optional inner => s :: rests total inner s
  | .lineStart => if s.length = total then [s] else []
  | .lineEnd => if s = [] then [s] else []

def shortest? (ss : List Bytes) : Option Bytes :=
  ss.foldl (fun best s =>
    match best with
    | some b => if s.length < b.length then some s else best
    | none => some s) none

/-- The longest match where the rest `s` of a line of `total` bytes begins: the rest
after it. -/
def matchHere? (p : Pattern) (total : Nat) (s : Bytes) : Option Bytes := shortest? (rests total p s)

/-- The first match in the rest of a line: what stands before it, the match, and what
is left. -/
def find? (p : Pattern) (total : Nat) : Bytes → Option (Bytes × Bytes × Bytes)
  | [] => (p.matchHere? total []).map fun rest => ([], [], rest)
  | b :: s =>
    match p.matchHere? total (b :: s) with
    | some rest => some ([], (b :: s).take ((b :: s).length - rest.length), rest)
    | none => (find? p total s).map fun (before, found, rest) => (b :: before, found, rest)

def isIn (p : Pattern) (line : Bytes) : Bool := (p.find? line.length line).isSome

/-! ## Reading a pattern -/

inductive Style where
  | basic
  | extended
deriving DecidableEq, Repr

/-- The members of a class in brackets, up to the closing one. -/
def members : Nat → Bool → Text → Option (List (UInt8 × UInt8) × Text)
  | 0, _, _ => none
  | fuel + 1, first, t =>
    match t with
    | [] => none
    | ']' :: rest => if first then add fuel [(93, 93)] rest else some ([], rest)
    | '[' :: ':' :: rest =>
      match Text.cutAt? ":]".toList rest with
      | some (name, rest) =>
        match String.ofList name with
        | "alpha" => add fuel [(65, 90), (97, 122)] rest
        | "digit" => add fuel [(48, 57)] rest
        | "alnum" => add fuel [(48, 57), (65, 90), (97, 122)] rest
        | "space" => add fuel [(9, 13), (32, 32)] rest
        | "upper" => add fuel [(65, 90)] rest
        | "lower" => add fuel [(97, 122)] rest
        | _ => none
      | none => none
    | a :: '-' :: b :: rest =>
      if b = ']' then add fuel (single a) ('-' :: b :: rest)
      else add fuel [(UInt8.ofNat a.toNat, UInt8.ofNat b.toNat)] rest
    | a :: rest => add fuel (single a) rest
where
  /-- The ranges of a single character. -/
  single (a : Char) : List (UInt8 × UInt8) := (Text.encode [a]).map fun b => (b, b)
  /-- Goes on after ranges. -/
  add (fuel : Nat) (ranges : List (UInt8 × UInt8)) (rest : Text) :
      Option (List (UInt8 × UInt8) × Text) :=
    (members fuel false rest).map fun (more, rest) => (ranges ++ more, rest)

/-- What a mark in a pattern means. -/
inductive Mark where
  | opening
  | closing
  | bar
  | plus
  | question
  | other
deriving DecidableEq

def mark (style : Style) (t : Text) : Mark × Text :=
  let named (c : Char) (rest : Text) : Mark × Text :=
    match c with
    | '(' => (.opening, rest)
    | ')' => (.closing, rest)
    | '|' => (.bar, rest)
    | '+' => (.plus, rest)
    | '?' => (.question, rest)
    | _ => (.other, t)
  match style, t with
  | .basic, '\x5c' :: c :: rest => named c rest
  | .extended, c :: rest => named c rest
  | _, _ => (.other, t)

mutual

/-- Reads alternatives. -/
def readEither (style : Style) : Nat → Text → Option (Pattern × Text)
  | 0, _ => none
  | fuel + 1, t => do
    let (left, rest) ← readSequence style fuel t
    match mark style rest with
    | (.bar, rest) =>
      let (right, rest) ← readEither style fuel rest
      return (.either left right, rest)
    | _ => return (left, rest)

def readSequence (style : Style) : Nat → Text → Option (Pattern × Text)
  | 0, _ => none
  | fuel + 1, t =>
    if t = [] || (mark style t).1 = .closing || (mark style t).1 = .bar then some (.nothing, t)
    else do
      let (first, rest) ← readPart style fuel t
      let (more, rest) ← readSequence style fuel rest
      return (.sequence first more, rest)

def readPart (style : Style) : Nat → Text → Option (Pattern × Text)
  | 0, _ => none
  | fuel + 1, t =>
    match mark style t with
    | (.opening, rest) => do
      let (inner, rest) ← readEither style fuel rest
      match mark style rest with
      | (.closing, rest) => repetitions style fuel inner rest
      | _ => none
    | _ =>
      match t with
      | [] => none
      | '.' :: rest => repetitions style fuel (.oneOf true []) rest
      | '[' :: '^' :: rest => do
        let (ranges, rest) ← members (rest.length + 1) true rest
        repetitions style fuel (.oneOf true ranges) rest
      | '[' :: rest => do
        let (ranges, rest) ← members (rest.length + 1) true rest
        repetitions style fuel (.oneOf false ranges) rest
      | '^' :: rest => some (.lineStart, rest)
      | ['$'] => some (.lineEnd, [])
      | '$' :: rest =>
        if (mark style rest).1 = .closing || (mark style rest).1 = .bar then some (.lineEnd, rest)
        else repetitions style fuel (literal ['$']) rest
      | '\x5c' :: c :: rest => repetitions style fuel (literal [c]) rest
      | c :: rest => repetitions style fuel (literal [c]) rest

def repetitions (style : Style) : Nat → Pattern → Text → Option (Pattern × Text)
  | 0, _, _ => none
  | fuel + 1, p, t =>
    match t, mark style t with
    | '*' :: rest, _ => repetitions style fuel (.many 0 p) rest
    | _, (.plus, rest) => repetitions style fuel (.many 1 p) rest
    | _, (.question, rest) => repetitions style fuel (.optional p) rest
    | _, _ => some (p, t)

end

def read? (style : Style) (t : Text) : Option Pattern :=
  match readEither style (4 * t.length + 4) t with
  | some (p, []) => some p
  | _ => none

/-- The pattern without regard to the case of ASCII letters. -/
def anyCase : Pattern → Pattern
  | .oneOf negated ranges =>
    let both (r : UInt8 × UInt8) : List (UInt8 × UInt8) :=
      if r.1 = r.2 then
        let c := Char.ofNat r.1.toNat
        [r, (UInt8.ofNat c.toLower.toNat, UInt8.ofNat c.toLower.toNat),
          (UInt8.ofNat c.toUpper.toNat, UInt8.ofNat c.toUpper.toNat)]
      else [r]
    .oneOf negated (ranges.flatMap both)
  | .sequence a b => .sequence a.anyCase b.anyCase
  | .either a b => .either a.anyCase b.anyCase
  | .many least a => .many least a.anyCase
  | .optional a => .optional a.anyCase
  | p => p

end Pattern

end PromptDoc.Tool
