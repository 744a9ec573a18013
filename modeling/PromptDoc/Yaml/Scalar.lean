/-
# PromptDoc.Yaml.Scalar — scalars in their four styles

Plain and quoted scalars may run over several lines: the blanks around a line end
vanish, a single line end becomes a space, and of several the first vanishes
(`foldBreaks`). Block scalars keep their lines (`|`) or fold them (`>`), and cut,
keep or clip the line ends behind them. `none` means that the scalar is malformed.
-/
import PromptDoc.Yaml.Cursor

namespace PromptDoc.Yaml

set_option autoImplicit false

/-- The blanks between two stretches of a scalar: spaces on one line, or the first
line end and those after it. -/
structure Gap where
  spaces : Text := []
  first : Text := []
  more : Text := []
  /-- Whether a line has ended. -/
  broken : Bool := false

namespace Gap

/-- What the line ends of a gap stand for. -/
def foldBreaks (g : Gap) : Text :=
  if g.first.head? = some '\n' then (if g.more = [] then [' '] else g.more)
  else g.first ++ g.more

def text (g : Gap) : Text := if g.broken then g.foldBreaks else g.spaces

/-- Reads on through blanks and line ends. With a least column, a tab before that
column on a further line is malformed. -/
def read (least : Option Nat) : Nat → Gap → Cursor → Option (Gap × Cursor)
  | 0, g, c => some (g, c)
  | fuel + 1, g, c =>
    if c.has isBlank then
      if g.broken && c.sees '\t' && (least.any fun column => c.column < column) then none
      else if g.broken then read least fuel g c.skip
      else read least fuel { g with spaces := g.spaces ++ c.rest.take 1 } c.skip
    else if c.has isBreak then
      let g := if g.broken then { g with more := g.more ++ c.breakText }
        else { g with spaces := [], first := c.breakText, broken := true }
      read least fuel g c.skipBreak
    else some (g, c)

end Gap

namespace Scalar

def isFlowIndicator (c : Char) : Bool :=
  c == ',' || c == '[' || c == ']' || c == '\x7b' || c == '\x7d'

def plainStretch (flow : Bool) : Nat → Text → Cursor → Option (Text × Cursor)
  | 0, found, c => some (found, c)
  | fuel + 1, found, c =>
    if c.separatesAt then some (found, c)
    else if flow && c.sees ':' && c.has (fun ch => isFlowIndicator ch || ch == '?') 1 then none
    else if (c.sees ':' && c.separatesAt 1) || (flow && c.has isFlowIndicator) then
      some (found, c)
    else plainStretch flow fuel (found ++ c.rest.take 1) c.skip

/-- Reads a plain scalar on from a gap: the value, the place behind it, and
whether that place is on a line of its own. Outside brackets the scalar ends
where a line is indented less than `least`. -/
def plainFrom (flow : Bool) (least : Nat) :
    Nat → Text → Gap → Cursor → Option (Text × Cursor × Bool)
  | 0, _, _, _ => none
  | fuel + 1, value, gap, c => do
    if c.atDocumentMarker || c.sees '#' then return (value, c, gap.broken)
    let (found, c) ← plainStretch flow fuel [] c
    let (value, gap) := if found = [] then (value, gap) else (value ++ gap.text ++ found, {})
    if !(c.has isBlank || c.has isBreak) then return (value, c, gap.broken)
    let (gap, c) ← Gap.read (some least) fuel gap c
    if !flow && c.column < least then return (value, c, gap.broken)
    plainFrom flow least fuel value gap c

def plain (flow : Bool) (least : Nat) (c : Cursor) : Option (Text × Cursor × Bool) :=
  plainFrom flow least (2 * c.rest.length + 2) [] {} c

def hexDigit? (c : Char) : Option Nat :=
  if c.isDigit then some (c.toNat - '0'.toNat)
  else if 'a' ≤ c && c ≤ 'f' then some (c.toNat - 'a'.toNat + 10)
  else if 'A' ≤ c && c ≤ 'F' then some (c.toNat - 'A'.toNat + 10)
  else none

def hexValue? (digits : Text) : Option Nat :=
  digits.foldlM (fun n c => (hexDigit? c).map (n * 16 + ·)) 0

/-- The character with a code point, unless it is a surrogate or past the last. -/
def ofCodePoint? (n : Nat) : Option Char :=
  if h : n.isValidChar then some ⟨n.toUInt32, by
    rcases h with h | ⟨h, h'⟩
    · exact .inl (by simp [Nat.toUInt32]; omega)
    · exact .inr (by simp [Nat.toUInt32]; omega)⟩ else none

def simpleEscape? (c : Char) : Option Char :=
  match c with
  | '0' => some '\x00'
  | 'a' => some '\x07'
  | 'b' => some '\x08'
  | 't' => some '\t'
  | '\t' => some '\t'
  | 'n' => some '\n'
  | 'v' => some '\x0b'
  | 'f' => some '\x0c'
  | 'r' => some '\r'
  | 'e' => some '\x1b'
  | ' ' => some ' '
  | '\x22' => some '\x22'
  | '/' => some '/'
  | '\x5c' => some '\x5c'
  | 'N' => some (Char.ofNat 0x85)
  | '_' => some (Char.ofNat 0xA0)
  | 'L' => some (Char.ofNat 0x2028)
  | 'P' => some (Char.ofNat 0x2029)
  | _ => none

def escapeWidth? (c : Char) : Option Nat :=
  if c == 'x' then some 2 else if c == 'u' then some 4 else if c == 'U' then some 8 else none

/-- The character that an escape stands for, the backslash being behind us, and
the place after it. -/
def escape? (c : Cursor) : Option (Char × Cursor) := do
  let letter ← c.rest.head?
  match simpleEscape? letter with
  | some ch => return (ch, c.skip)
  | none =>
    let width ← escapeWidth? letter
    let digits := (c.rest.drop 1).take width
    if digits.length < width then none
    let ch ← ofCodePoint? (← hexValue? digits)
    return (ch, c.skip (width + 1))

/-- A stretch of a quoted scalar without blanks, and whether it ended at an
escaped line end. -/
def quotedStretch (single : Bool) : Nat → Text → Cursor → Option (Text × Cursor × Bool)
  | 0, found, c => some (found, c, false)
  | fuel + 1, found, c =>
    if c.separatesAt then some (found, c, false)
    else if single && c.sees '\x27' && c.sees '\x27' 1 then
      quotedStretch single fuel (found ++ ['\x27']) (c.skip 2)
    else if c.sees (if single then '\x27' else '\x22') then some (found, c, false)
    else if !single && c.sees '\x5c' then
      if c.has isBreak 1 then some (found, c.skip.skipBreak, true)
      else
        match escape? c.skip with
        | some (ch, c) => quotedStretch single fuel (found ++ [ch]) c
        | none => none
    else quotedStretch single fuel (found ++ c.rest.take 1) c.skip

/-- Reads a quoted scalar on to its closing quote. -/
def quotedFrom (single : Bool) : Nat → Text → Cursor → Option (Text × Cursor)
  | 0, _, _ => none
  | fuel + 1, value, c => do
    if c.atDocumentMarker || c.endsAt then none
    let (found, c, broken) ← quotedStretch single fuel [] c
    if c.sees (if single then '\x27' else '\x22') then return (value ++ found, c.skip)
    let (gap, c) ← Gap.read none fuel { broken } c
    quotedFrom single fuel (value ++ found ++ gap.text) c

def quoted (single : Bool) (c : Cursor) : Option (Text × Cursor) :=
  quotedFrom single (2 * c.rest.length + 2) [] c.skip

/-- What becomes of the line ends behind a block scalar. -/
inductive Chomping where
  | clip
  | strip
  | keep
deriving DecidableEq

/-- The header of a block scalar behind its indicator: chomping and indentation
in either order, then nothing but a comment on the line. -/
def blockHeader (c : Cursor) : Option (Chomping × Option Nat × Cursor) := do
  let chomping? (c : Cursor) : Option Chomping :=
    if c.sees '+' then some .keep else if c.sees '-' then some .strip else none
  let increment? (c : Cursor) : Option Nat :=
    match c.rest with
    | ch :: _ => if ch.isDigit then some (ch.toNat - '0'.toNat) else none
    | [] => none
  let (chomping, increment, c) :=
    match chomping? c with
    | some chomping =>
      match increment? c.skip with
      | some n => (chomping, some n, c.skip 2)
      | none => (chomping, none, c.skip)
    | none =>
      match increment? c with
      | some n =>
        match chomping? c.skip with
        | some chomping => (chomping, some n, c.skip 2)
        | none => (.clip, some n, c.skip)
      | none => (.clip, none, c)
  if increment = some 0 then none
  let c := c.skipWhile isBlank
  let c := if c.sees '#' then c.skipLine else c
  if !c.breaksAt then none
  return (chomping, increment, c.skipBreak)

/-- Reads indentation and empty lines before a line of a block scalar: the line
ends read, and the widest indentation seen. -/
def blockBreaks (indent : Nat) : Nat → Text → Nat → Cursor → Option (Text × Nat × Cursor)
  | 0, breaks, widest, c => some (breaks, widest, c)
  | fuel + 1, breaks, widest, c =>
    let room := if indent = 0 then c.rest.length else indent - c.column
    let c := c.skip ((c.rest.take room).takeWhile (· == ' ')).length
    let widest := max widest c.column
    if (indent = 0 || c.column < indent) && c.sees '\t' then none
    else if c.has isBreak then
      blockBreaks indent fuel (breaks ++ c.breakText) widest c.skipBreak
    else some (breaks, widest, c)

/-- Reads the lines of a block scalar: the value so far, the line end after the
last line, the empty lines after that, and whether the last line began with a
blank. -/
def blockLines (literal : Bool) (indent : Nat) :
    Nat → Text → Text → Text → Bool → Cursor → Option (Text × Text × Text × Cursor)
  | 0, value, last, empty, _, c => some (value, last, empty, c)
  | fuel + 1, value, last, empty, blankBefore, c => do
    if c.column != indent || c.endsAt then return (value, last, empty, c)
    let blank := c.has isBlank
    let joined :=
      if !literal && last.head? = some '\n' && !blankBefore && !blank then
        if empty = [] then [' '] else []
      else last
    let (line, c) := c.takeWhile fun ch => !isBreak ch
    let value := value ++ joined ++ empty ++ line
    let last := c.breakText
    let (empty, _, c) ← blockBreaks indent fuel [] 0 c.skipBreak
    blockLines literal indent fuel value last empty blank c

def block (literal : Bool) (least : Nat) (c : Cursor) : Option (Text × Cursor) := do
  let fuel := 2 * c.rest.length + 2
  let (chomping, increment, c) ← blockHeader c.skip
  let fixed := match increment with
    | some n => (least - 1) + n
    | none => 0
  let (empty, widest, c) ← blockBreaks fixed fuel [] 0 c
  let indent := if fixed = 0 then max widest (max least 1) else fixed
  let (value, last, empty, c) ← blockLines literal indent fuel [] [] empty false c
  let value := if chomping = .strip then value else value ++ last
  return (if chomping = .keep then value ++ empty else value, c)

end Scalar

end PromptDoc.Yaml
