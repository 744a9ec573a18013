/-
# PromptDoc.Yaml.Cursor — a place in a YAML stream

What is left of the stream, with the index, line and column reached. The index
counts the bytes of UTF-8, the column counts characters. Line ends are CR, LF,
CR LF, NEL, LS and PS; blanks are spaces and tabs.
-/
import PromptDoc.Text.Basic

namespace PromptDoc.Yaml

set_option autoImplicit false

/-- Whether a character may stand in a stream at all. -/
def isAllowed (c : Char) : Bool :=
  let n := c.toNat
  n == 0x09 || n == 0x0A || n == 0x0D || (0x20 ≤ n && n ≤ 0x7E) || n == 0x85 ||
    (0xA0 ≤ n && n ≤ 0xFFFD) || 0x10000 ≤ n

def isBreak (c : Char) : Bool :=
  c == '\r' || c == '\n' || c.toNat == 0x85 || c.toNat == 0x2028 || c.toNat == 0x2029

def isBlank (c : Char) : Bool := c == ' ' || c == '\t'

/-- Letters, digits, `-` and `_`: what names of anchors and handles are made of. -/
def isWordChar (c : Char) : Bool := c.isAlphanum || c == '-' || c == '_'

/-- A place in a stream. -/
structure Cursor where
  rest : Text
  index : Nat := 0
  line : Nat := 0
  column : Nat := 0

namespace Cursor

/-- Whether the `n`-th character from here is there and in the class. -/
def has (c : Cursor) (p : Char → Bool) (n : Nat := 0) : Bool :=
  match c.rest[n]? with
  | some ch => p ch
  | none => false

def sees (c : Cursor) (ch : Char) (n : Nat := 0) : Bool := c.has (· == ch) n

def endsAt (c : Cursor) (n : Nat := 0) : Bool := c.rest[n]?.isNone

/-- Whether the `n`-th character from here is a line end, or the stream ends there. -/
def breaksAt (c : Cursor) (n : Nat := 0) : Bool := c.has isBreak n || c.endsAt n

/-- Whether the `n`-th character from here is a blank or a line end, or the stream
ends there. -/
def separatesAt (c : Cursor) (n : Nat := 0) : Bool := c.has isBlank n || c.breaksAt n

/-- The place `n` characters further on the same line. -/
def skip (c : Cursor) (n : Nat := 1) : Cursor :=
  let gone := c.rest.take n
  { c with
    rest := c.rest.drop n
    index := c.index + Text.byteLength gone
    column := c.column + gone.length }

def skipBreak (c : Cursor) : Cursor :=
  let width := if c.sees '\r' && c.sees '\n' 1 then 2 else if c.has isBreak then 1 else 0
  if width = 0 then c
  else
    { rest := c.rest.drop width
      index := c.index + Text.byteLength (c.rest.take width)
      line := c.line + 1
      column := 0 }

/-- The text that the line end here stands for: LS and PS for themselves, every
other one for a line feed. -/
def breakText (c : Cursor) : Text :=
  match c.rest with
  | ch :: _ =>
    if ch.toNat == 0x2028 || ch.toNat == 0x2029 then [ch]
    else if isBreak ch then ['\n'] else []
  | [] => []

/-- The longest stretch of characters of a class from here, and the place after it. -/
def takeWhile (c : Cursor) (p : Char → Bool) : Text × Cursor :=
  let found := c.rest.takeWhile p
  (found, c.skip found.length)

def skipWhile (c : Cursor) (p : Char → Bool) : Cursor := (c.takeWhile p).2

def skipLine (c : Cursor) : Cursor := c.skipWhile fun ch => !isBreak ch

/-- Whether a line consisting of a document marker starts here. -/
def atMarker (c : Cursor) (mark : Char) : Bool :=
  c.column == 0 && c.sees mark && c.sees mark 1 && c.sees mark 2 && c.separatesAt 3

def atDocumentMarker (c : Cursor) : Bool := c.atMarker '-' || c.atMarker '.'

end Cursor

end PromptDoc.Yaml
