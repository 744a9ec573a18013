/-
# PromptDoc.CommandLine.Reading — arguments read one after the other

Values are settled late: an option or operand waits (`Reading.pending`) until the
next one begins or the arguments end, and only then is a missing value, an empty
path or a repeated option noticed. So an argument that is not known at all wins
over a bad value before it.
-/
import PromptDoc.CommandLine.Form
import PromptDoc.CommandLine.Usage

namespace PromptDoc.CommandLine

set_option autoImplicit false

/-- How far arguments have been read. -/
structure Reading where
  /-- What has been said, with its values. -/
  given : List (Slot × List Text) := []
  /-- What still may get values. -/
  pending : Option (Slot × List Text) := none
  /-- Whether the next argument is the value of an option. -/
  wantsValue : Bool := false
  /-- Whether only operands follow. -/
  operandsOnly : Bool := false
  /-- The operands that can still be given. -/
  operands : List Slot := []

namespace Reading

def values (r : Reading) (slot : Slot) : List Text :=
  (r.given.filter (·.1 = slot)).flatMap (·.2)

def has (r : Reading) (slot : Slot) : Bool := r.given.any (·.1 = slot)

/-- Takes something with its values as said. -/
def say (r : Reading) (slot : Slot) (values : List Text) : Except Usage Reading :=
  if !slot.isSwitch && values = [] then .error .badValue
  else if r.has slot && !slot.isList then .error .repeatedOption
  else if slot.isPath && values.contains [] then .error .badValue
  else .ok { r with given := r.given ++ [(slot, values)] }

/-- Settles what still may get values. -/
def settle (r : Reading) : Except Usage Reading :=
  match r.pending with
  | none => .ok r
  | some (slot, values) => { r with pending := none, wantsValue := false }.say slot values

def switch (r : Reading) (slot : Slot) : Except Usage Reading := do
  let r ← r.settle
  match slot with
  | .help => throw .help
  | .version => throw .version
  | slot => r.say slot []

/-- Reads an option that takes a value, which may be attached to it. -/
def option (r : Reading) (slot : Slot) (attached : Option Text) : Except Usage Reading := do
  let r ← r.settle
  match attached with
  | some value => r.say slot [value]
  | none => return { r with pending := some (slot, []), wantsValue := true }

/-- Reads `--name` or `--name=value`. -/
def long (f : Form) (r : Reading) (name : Text) (attached : Option Text) :
    Except Usage Reading :=
  match f.named? name, attached with
  | none, _ => .error .unknownArgument
  | some slot, attached =>
    if !slot.isSwitch then r.option slot attached
    else if attached.isSome then .error .unneededValue
    else r.switch slot

/-- Reads the letters after a hyphen. What follows the letter of an option that
takes a value is the value, with or without an equals sign. -/
def short (f : Form) (r : Reading) : Text → Except Usage Reading
  | [] => .ok r
  | letter :: letters =>
    match f.lettered? letter with
    | none => .error .unknownArgument
    | some slot =>
      if slot.isSwitch then
        match r.switch slot with
        | .error u => .error u
        | .ok r => short f r letters
      else
        r.option slot
          (match letters with
            | [] => none
            | '=' :: value => some value
            | value => some value)

def operand (r : Reading) (value : Text) : Except Usage Reading :=
  match r.operands with
  | [] => .error .unknownArgument
  | slot :: operands =>
    match r.pending with
    | some (waiting, values) =>
      if waiting = slot then .ok { r with pending := some (slot, values ++ [value]) }
      else next slot operands
    | none => next slot operands
where
  /-- Begins with the values of an operand. -/
  next (slot : Slot) (operands : List Slot) : Except Usage Reading := do
    let r ← r.settle
    return { r with
      pending := some (slot, [value])
      operands := if slot.isList then slot :: operands else operands }

/-- The name and the attached value of an argument that begins with two
hyphens. -/
def splitLong (rest : Text) : Text × Option Text :=
  match Text.cutAt? ['='] rest with
  | some (name, value) => (name, some value)
  | none => (rest, none)

def argument (f : Form) (r : Reading) (a : Text) : Except Usage Reading :=
  if r.operandsOnly then r.operand a
  else
    match a with
    | ['-', '-'] => .ok { r with operandsOnly := true }
    | '-' :: '-' :: rest => r.long f (splitLong rest).1 (splitLong rest).2
    | '-' :: letter :: letters => r.short f (letter :: letters)
    | a =>
      match r.wantsValue, r.pending with
      | true, some (slot, _) => .ok { r with pending := some (slot, [a]), wantsValue := false }
      | _, _ => r.operand a

end Reading

end PromptDoc.CommandLine
