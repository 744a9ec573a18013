/-
# PromptDoc.Yaml.Token — a YAML stream as tokens

A stream is read token by token (`Reader.next`). Two things make the tokens more
than a list of the marks on the page. Indentation opens and closes blocks, so a
block start and a block end stand where the indentation grows and shrinks. And a
simple key is known only from the colon behind it, so its `key` token is put in
where the key began, which `SimpleKey` remembers for each level of brackets.

`Token.ofText?` is `none` for a stream that cannot be read.
-/
import PromptDoc.Yaml.Scalar

namespace PromptDoc.Yaml

set_option autoImplicit false

/-- The tokens of a stream. -/
inductive Token where
  | version (major minor : Nat)
  | tagHandle (handle : Text)
  | documentStart
  | documentEnd
  | blockSequenceStart
  | blockMappingStart
  | blockEnd
  | flowSequenceStart
  | flowSequenceEnd
  | flowMappingStart
  | flowMappingEnd
  | blockEntry
  | flowEntry
  | key
  | value
  | alias (name : Text)
  | anchor (name : Text)
  /-- The handle of a tag; the rest of a tag carries no meaning here. -/
  | tag (handle : Text)
  | scalar (text : Text) (plain : Bool)
  | streamEnd
deriving DecidableEq, Repr

/-- A place where a key may have begun. -/
structure SimpleKey where
  /-- Whether only a key can stand there. -/
  required : Bool
  /-- How many tokens stand before it. -/
  token : Nat
  index : Nat
  line : Nat
  column : Nat

structure Reader where
  cursor : Cursor
  tokens : List Token := []
  /-- The column after that of the innermost block; zero outside blocks. -/
  indent : Nat := 0
  /-- The columns of the blocks around it. -/
  outer : List Nat := []
  /-- Whether a simple key can begin here. -/
  keyAllowed : Bool := true
  /-- The possible key of the innermost level of brackets. -/
  possible : Option SimpleKey := none
  /-- The possible keys of the levels around it. -/
  brackets : List (Option SimpleKey) := []

namespace Reader

def inFlow (r : Reader) : Bool := !r.brackets.isEmpty

def emit (r : Reader) (t : Token) : Reader := { r with tokens := r.tokens ++ [t] }

def mark (r : Reader) (t : Token) (width : Nat := 1) : Reader :=
  { r.emit t with cursor := r.cursor.skip width }

/-- Opens a block at a column, if it is deeper than the one we are in; its start
stands after the first `position` tokens. -/
def openBlock (r : Reader) (column position : Nat) (start : Token) : Reader :=
  if !r.inFlow && r.indent < column + 1 then
    { r with
      outer := r.indent :: r.outer
      indent := column + 1
      tokens := r.tokens.take position ++ start :: r.tokens.drop position }
  else r

def openBlockHere (r : Reader) (start : Token) : Reader :=
  r.openBlock r.cursor.column r.tokens.length start

/-- Closes the blocks that a text indented by less than `indent` leaves. -/
def closeBlocks (indent : Nat) : List Nat → Reader → Reader
  | [], r => r
  | column :: columns, r =>
    if indent < r.indent then
      closeBlocks indent columns { r.emit .blockEnd with indent := column, outer := columns }
    else r

/-- Closes the blocks that are deeper than a column. -/
def leaveBlocks (r : Reader) (indent : Nat) : Reader :=
  if r.inFlow then r else closeBlocks indent r.outer r

/-- Gives up the possible key, unless a key had to stand there. -/
def dropKey (r : Reader) : Option Reader :=
  match r.possible with
  | some k => if k.required then none else some { r with possible := none }
  | none => some r

/-- Remembers that a key may begin here. -/
def saveKey (r : Reader) : Option Reader :=
  if r.keyAllowed then do
    let r ← r.dropKey
    let c := r.cursor
    let required := !r.inFlow && r.indent == c.column + 1
    return { r with possible := some ⟨required, r.tokens.length, c.index, c.line, c.column⟩ }
  else some r

/-- Whether a possible key lies too far behind: on an earlier line, or more than
1024 bytes back. -/
def isStale (c : Cursor) (k : SimpleKey) : Bool := k.line < c.line || k.index + 1024 < c.index

/-- A possible key unless it lies too far behind; then a required one is missing. -/
def freshKey? (c : Cursor) : Option SimpleKey → Option (Option SimpleKey)
  | some k => if isStale c k then (if k.required then none else some none) else some (some k)
  | none => some none

def dropStaleKeys (r : Reader) : Option Reader := do
  let possible ← freshKey? r.cursor r.possible
  let brackets ← r.brackets.mapM (freshKey? r.cursor)
  return { r with possible, brackets }

/-- Skips blanks, comments and line ends before the next token. A byte order mark
in front of a line is skipped too, but it takes up a column, so that what follows
it is indented by one. -/
def skipSpace : Nat → Reader → Reader
  | 0, r => r
  | fuel + 1, r =>
    let c := r.cursor
    let c := if c.column == 0 && c.sees '\uFEFF' then c.skip else c
    let tabs := r.inFlow || !r.keyAllowed
    let c := c.skipWhile fun ch => ch == ' ' || (tabs && ch == '\t')
    let c := if c.sees '#' then c.skipLine else c
    if c.has isBreak then
      skipSpace fuel { r with cursor := c.skipBreak, keyAllowed := r.keyAllowed || !r.inFlow }
    else { r with cursor := c }

/-- A part of a version number: up to nine digits. -/
def number? (c : Cursor) : Option (Nat × Cursor) :=
  let (found, c) := c.takeWhile Char.isDigit
  if found.isEmpty || 9 < found.length then none
  else some (found.foldl (fun n ch => 10 * n + (ch.toNat - '0'.toNat)) 0, c)

/-- A tag handle: `!`, `!!` or `!word!`. In a directive it has to be closed. -/
def handle? (directive : Bool) (c : Cursor) : Option (Text × Cursor) :=
  if c.sees '!' then
    let (word, c) := c.skip.takeWhile isWordChar
    if c.sees '!' then some (['!'] ++ word ++ ['!'], c.skip)
    else if directive && !word.isEmpty then none
    else some ('!' :: word, c)
  else none

def isTagChar (verbatim : Bool) (c : Char) : Bool :=
  isWordChar c || ";/?:@&=+$.!~*'()".toList.contains c ||
    (verbatim && [',', '[', ']'].contains c)

/-- Two hexadecimal digits. -/
def octet? (c : Cursor) : Option Nat :=
  match (c.rest.take 2).mapM Scalar.hexDigit? with
  | some [high, low] => some (16 * high + low)
  | _ => none

/-- How many escaped bytes go with a first one. -/
def octetCount? (n : Nat) : Option Nat :=
  if n < 0x80 then some 1 else if 0xC0 ≤ n && n < 0xE0 then some 2
  else if 0xE0 ≤ n && n < 0xF0 then some 3 else if 0xF0 ≤ n && n < 0xF8 then some 4 else none

def escapedTail : Nat → Cursor → Option Cursor
  | 0, c => some c
  | more + 1, c => do
    if !c.sees '%' then none
    let n ← octet? c.skip
    if n < 0x80 || 0xBF < n then none
    escapedTail more (c.skip 3)

/-- Skips the characters of a tag, counting them; escapes have to be well formed. -/
def tagText (verbatim : Bool) : Nat → Nat → Cursor → Option (Nat × Cursor)
  | 0, count, c => some (count, c)
  | fuel + 1, count, c =>
    if c.sees '%' then do
      let n ← octet? c.skip
      let more ← octetCount? n
      let c ← escapedTail (more - 1) (c.skip 3)
      tagText verbatim fuel (count + 1) c
    else if c.has (isTagChar verbatim) then tagText verbatim fuel (count + 1) c.skip
    else some (count, c)

/-- A directive, from its percent sign to the end of its line. -/
def directive (r : Reader) : Option Reader := do
  let (name, c) := r.cursor.skip.takeWhile isWordChar
  if name.isEmpty || !c.separatesAt then none
  let c := c.skipWhile isBlank
  let (token, c) ←
    if name = "YAML".toList then do
      let (major, c) ← number? c
      if !c.sees '.' then none
      let (minor, c) ← number? c.skip
      some (Token.version major minor, c)
    else if name = "TAG".toList then do
      let (handle, c) ← handle? true c
      if !c.has isBlank then none
      let c := c.skipWhile isBlank
      let (count, c) ← tagText true c.rest.length 0 c
      if count = 0 || !c.separatesAt then none
      some (Token.tagHandle handle, c)
    else none
  let c := c.skipWhile isBlank
  let c := if c.sees '#' then c.skipLine else c
  if !c.breaksAt then none
  return { r.emit token with cursor := c.skipBreak }

/-- The name behind `*` or `&`. -/
def name? (c : Cursor) : Option (Text × Cursor) :=
  let (name, c) := c.skip.takeWhile isWordChar
  if name.isEmpty || !(c.separatesAt || c.has (fun ch => "?:,]%@\x60".toList.contains ch) ||
      c.sees '\x7d') then none
  else some (name, c)

def tag? (flow : Bool) (c : Cursor) : Option (Text × Cursor) := do
  let (handle, c) ←
    if c.sees '<' 1 then do
      let (count, c) ← tagText true c.rest.length 0 (c.skip 2)
      if count = 0 || !c.sees '>' then none
      some ([], c.skip)
    else do
      let (handle, c) ← handle? false c
      if handle.length > 1 && handle.getLast? = some '!' then
        let (count, c) ← tagText false c.rest.length 0 c
        if count = 0 then none
        some (handle, c)
      else
        let (count, c) ← tagText false c.rest.length 0 c
        some (if handle = ['!'] && count = 0 then [] else ['!'], c)
  if !(c.separatesAt || (flow && c.sees ',')) then none
  return (handle, c)

/-- What starts a token other than a plain scalar. -/
def isIndicator (c : Char) : Bool :=
  "-?:,[]#&*!|>%@\x60".toList.contains c || c == '\x7b' || c == '\x7d' || c == '\x27' ||
    c == '\x22'

def startsPlain (r : Reader) : Bool :=
  let c := r.cursor
  (!c.separatesAt && !c.has isIndicator) ||
    (c.sees '-' && !c.has isBlank 1) ||
    (!r.inFlow && (c.sees '?' || c.sees ':') && !c.separatesAt 1)

def openFlow (r : Reader) (t : Token) : Option Reader := do
  let r ← r.saveKey
  return { r.mark t with
    brackets := r.possible :: r.brackets, possible := none, keyAllowed := true }

def closeFlow (r : Reader) (t : Token) : Option Reader := do
  let r ← r.dropKey
  let r := { r.mark t with keyAllowed := false }
  match r.brackets with
  | key :: keys => return { r with possible := key, brackets := keys }
  | [] => return r

/-- A dash that begins an entry of a block sequence. -/
def blockEntry (r : Reader) : Option Reader := do
  if !r.inFlow && !r.keyAllowed then none
  let r ← (r.openBlockHere .blockSequenceStart).dropKey
  return { r.mark .blockEntry with keyAllowed := true }

/-- A question mark that begins a key. -/
def explicitKey (r : Reader) : Option Reader := do
  if !r.inFlow && !r.keyAllowed then none
  let r ← (r.openBlockHere .blockMappingStart).dropKey
  return { r.mark .key with keyAllowed := !r.inFlow }

/-- A colon: the possible key becomes one. -/
def colon (r : Reader) : Option Reader :=
  match r.possible with
  | some k =>
    let r := { r with tokens := r.tokens.take k.token ++ Token.key :: r.tokens.drop k.token }
    let r := r.openBlock k.column k.token .blockMappingStart
    some { r.mark .value with possible := none, keyAllowed := false }
  | none => do
    if !r.inFlow && !r.keyAllowed then none
    let r := r.openBlockHere .blockMappingStart
    return { r.mark .value with keyAllowed := !r.inFlow }

/-- A token that can begin a simple key: its text and what stands behind it. -/
def keyLike (r : Reader) (token : Token) (c : Cursor) (keyAllowed : Bool := false) :
    Option Reader := do
  let r ← r.saveKey
  return { r.emit token with cursor := c, keyAllowed }

/-- A mark that ends whatever is open: a directive or a document marker. -/
def interrupt (r : Reader) : Option Reader := do
  let r ← (r.leaveBlocks 0).dropKey
  return { r with keyAllowed := false }

/-- Reads the next token, and says whether it was the last. -/
def next (r : Reader) : Option (Bool × Reader) := do
  let r := skipSpace (r.cursor.rest.length + 1) r
  let r ← r.dropStaleKeys
  let r := r.leaveBlocks (r.cursor.column + 1)
  let c := r.cursor
  let more (r : Option Reader) : Option (Bool × Reader) := r.map (false, ·)
  if c.endsAt then
    let r ← r.interrupt
    return (true, r.emit .streamEnd)
  else if c.column == 0 && c.sees '%' then more (do (← r.interrupt).directive)
  else if c.atMarker '-' then more (do return (← r.interrupt).mark .documentStart 3)
  else if c.atMarker '.' then more (do return (← r.interrupt).mark .documentEnd 3)
  else if c.sees '[' then more (r.openFlow .flowSequenceStart)
  else if c.sees '\x7b' then more (r.openFlow .flowMappingStart)
  else if c.sees ']' then more (r.closeFlow .flowSequenceEnd)
  else if c.sees '\x7d' then more (r.closeFlow .flowMappingEnd)
  else if c.sees ',' then
    more (do return { (← r.dropKey).mark .flowEntry with keyAllowed := true })
  else if c.sees '-' && c.separatesAt 1 then more r.blockEntry
  else if c.sees '?' && (r.inFlow || c.separatesAt 1) then more r.explicitKey
  else if c.sees ':' && (r.inFlow || c.separatesAt 1) then more r.colon
  else if c.sees '*' then more (do let (name, c) ← name? c; r.keyLike (.alias name) c)
  else if c.sees '&' then more (do let (name, c) ← name? c; r.keyLike (.anchor name) c)
  else if c.sees '!' then more (do let (handle, c) ← tag? r.inFlow c; r.keyLike (.tag handle) c)
  else if (c.sees '|' || c.sees '>') && !r.inFlow then
    more (do
      let r ← r.dropKey
      let (text, c) ← Scalar.block (c.sees '|') r.indent c
      return { r.emit (.scalar text false) with cursor := c, keyAllowed := true })
  else if c.sees '\x27' || c.sees '\x22' then
    more (do
      let (text, behind) ← Scalar.quoted (c.sees '\x27') c
      r.keyLike (.scalar text false) behind)
  else if r.startsPlain then
    more (do
      let (text, behind, newLine) ← Scalar.plain r.inFlow r.indent c
      r.keyLike (.scalar text true) behind newLine)
  else none

def all : Nat → Reader → Option (List Token)
  | 0, _ => none
  | fuel + 1, r => do
    let (done, r) ← r.next
    if done then return r.tokens
    all fuel r

end Reader

def Token.ofText? (t : Text) : Option (List Token) :=
  if t.all isAllowed then Reader.all (t.length + 2) { cursor := { rest := t } } else none

end PromptDoc.Yaml
