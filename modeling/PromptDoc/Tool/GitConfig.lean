/-
# PromptDoc.Tool.GitConfig — the config file of a repository

A config consists of sections, `[name]` or `[name "part"]`, and entries `key` or
`key = value` in them. Names of sections and keys are taken in lower case. In a
value a backslash marks an escape, quotes keep blanks, and `#` and `;` begin a
comment. Reading stops at the first line that is none of this.
-/
import PromptDoc.Text.Utf8

namespace PromptDoc.Tool

set_option autoImplicit false

/-- An entry: the section and the key, and the value if there is one. -/
structure GitEntry where
  name : Text
  value : Option Text
deriving DecidableEq, Repr

namespace GitEntry

def number? (e : GitEntry) : Option Int :=
  let (negative, digits) := match e.value.getD [] with
    | '-' :: rest => (true, rest)
    | '+' :: rest => (false, rest)
    | t => (false, t)
  let number := digits.takeWhile Char.isDigit
  let scale? : Option Nat := match String.ofList ((digits.drop number.length).map Char.toLower) with
    | "" => some 1
    | "k" => some 1024
    | "m" => some 1048576
    | "g" => some 1073741824
    | _ => none
  let size : Nat := number.foldl (fun n c => n * 10 + (c.toNat - 48)) 0
  match scale? with
  | some scale =>
    if number = [] then none
    else some (if negative then -(Int.ofNat (size * scale)) else Int.ofNat (size * scale))
  | none => none

/-- Whether a value means yes; no value at all does. -/
def flag? (e : GitEntry) : Option Bool :=
  match e.value with
  | none => some true
  | some t =>
    match String.ofList (t.map Char.toLower) with
    | "true" | "yes" | "on" => some true
    | "false" | "no" | "off" | "" => some false
    | _ => e.number?.map (· ≠ 0)

end GitEntry

/-- A config as far as it can be read. -/
structure GitConfig where
  entries : List GitEntry := []
  /-- The line at which reading stopped, if it did. -/
  badLine : Option Nat := none

namespace GitConfig

/-- A value that is being read. -/
structure OpenValue where
  text : Text := []
  /-- Blanks that count if more of the value follows. -/
  blanks : Nat := 0
  quoted : Bool := false
  escaped : Bool := false
  comment : Bool := false

inductive Place where
  | between
  | comment
  /-- The name of a section. -/
  | heading (name : Text)
  /-- The blanks in front of the second part of a name. -/
  | headingGap (name : Text)
  | headingPart (name : Text) (escaped : Bool)
  | headingEnd (name : Text)
  | key (name : Text)
  | keyGap (name : Text)
  | value (name : Text) (v : OpenValue)

structure Reader where
  place : Place := .between
  /-- The section that entries are in. -/
  heading : Text := []
  line : Nat := 1
  entries : List GitEntry := []

namespace Reader

/-- Goes on in another place. -/
def move (r : Reader) (place : Place) : Option Reader := some { r with place }

def nextLine (r : Reader) (place : Place) : Option Reader :=
  some { r with place, line := r.line + 1 }

def entry (r : Reader) (name : Text) (value : Option Text) : Option Reader :=
  nextLine { r with entries := r.entries ++ [{ name, value }] } .between

def isBlank (c : Char) : Bool :=
  c = ' ' || c = '\t' || c = '\r' || c.toNat = 11 || c.toNat = 12

def isNameChar (c : Char) : Bool := c.isAlphanum || c = '-'

def value (r : Reader) (name : Text) (v : OpenValue) (c : Char) : Option Reader :=
  if v.escaped then
    let push (c : Char) : Option Reader :=
      r.move (.value name { v with text := v.text ++ [c], escaped := false })
    match c with
    | '\n' => r.nextLine (.value name { v with escaped := false })
    | 't' => push '\t'
    | 'b' => push '\x08'
    | 'n' => push '\n'
    | '\x5c' => push '\x5c'
    | '\x22' => push '\x22'
    | _ => none
  else if c = '\n' then if v.quoted then none else r.entry name (some v.text)
  else if v.comment then some r
  else if isBlank c && !v.quoted then
    r.move (.value name { v with blanks := if v.text = [] then 0 else v.blanks + 1 })
  else if (c = '#' || c = ';') && !v.quoted then r.move (.value name { v with comment := true })
  else
    let v := { v with text := v.text ++ List.replicate v.blanks ' ', blanks := 0 }
    if c = '\x5c' then r.move (.value name { v with escaped := true })
    else if c = '\x22' then r.move (.value name { v with quoted := !v.quoted })
    else r.move (.value name { v with text := v.text ++ [c] })

def afterKey (r : Reader) (name : Text) (c : Char) : Option Reader :=
  if c = '\n' then r.entry name none
  else if c = ' ' || c = '\t' then r.move (.keyGap name)
  else if c = '=' then r.move (.value name {})
  else none

def step (r : Reader) (c : Char) : Option Reader :=
  match r.place with
  | .between =>
    if c = '\n' then r.nextLine .between
    else if isBlank c then some r
    else if c = '#' || c = ';' then r.move .comment
    else if c = '[' then r.move (.heading [])
    else if c.isAlpha then r.move (.key (r.heading ++ [c.toLower]))
    else none
  | .comment => if c = '\n' then r.nextLine .between else some r
  | .heading name =>
    if c = ']' then some { r with place := .between, heading := name ++ ['.'] }
    else if c = '\n' then none
    else if isBlank c then r.move (.headingGap name)
    else if isNameChar c || c = '.' then r.move (.heading (name ++ [c.toLower]))
    else none
  | .headingGap name =>
    if c = '\n' then none
    else if isBlank c then some r
    else if c = '\x22' then r.move (.headingPart (name ++ ['.']) false)
    else none
  | .headingPart name escaped =>
    if c = '\n' then none
    else if escaped then r.move (.headingPart (name ++ [c]) false)
    else if c = '\x22' then r.move (.headingEnd name)
    else if c = '\x5c' then r.move (.headingPart name true)
    else r.move (.headingPart (name ++ [c]) false)
  | .headingEnd name =>
    if c = ']' then some { r with place := .between, heading := name ++ ['.'] } else none
  | .key name =>
    if isNameChar c then r.move (.key (name ++ [c.toLower])) else r.afterKey name c
  | .keyGap name => r.afterKey name c
  | .value name v => r.value name v c

def read (r : Reader) : Text → GitConfig
  | [] => { entries := r.entries }
  | c :: cs =>
    match r.step c with
    | some r => r.read cs
    | none => { entries := r.entries, badLine := some r.line }

end Reader

def ofText (t : Text) : GitConfig :=
  let t := match t with
    | '\uFEFF' :: rest => rest
    | t => t
  Reader.read {} (t.filter (· ≠ '\r') ++ ['\n'])

end GitConfig

end PromptDoc.Tool
