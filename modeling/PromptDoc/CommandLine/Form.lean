/-
# PromptDoc.CommandLine.Form — what a command accepts

A form lists the options and the operands of a command. Options are written
`--name`, those with a letter also `-x`; some take a value. Some values are paths,
which must not be empty.
-/
import PromptDoc.Text.Basic

namespace PromptDoc

set_option autoImplicit false

namespace CommandLine

/-- What an argument says. -/
inductive Slot where
  | help
  | version
  | verbose
  | root
  | output
  | json
  | file
  | paths
deriving DecidableEq, Repr

namespace Slot

def isSwitch : Slot → Bool
  | .help | .version | .verbose | .json => true
  | _ => false

def isPath : Slot → Bool
  | .root | .output | .file => true
  | _ => false

/-- Whether more values may be given. -/
def isList : Slot → Bool
  | .paths => true
  | _ => false

end Slot

structure Flag where
  name : Text
  letter : Option Char
  slot : Slot

/-- The options and operands of a command. -/
structure Form where
  flags : List Flag
  operands : List Slot := []
  /-- The operands that have to be given. -/
  required : List Slot := []

namespace Form

/-- The options that every command accepts. -/
def common : List Flag :=
  [⟨"help".toList, some 'h', .help⟩, ⟨"version".toList, some 'V', .version⟩,
    ⟨"verbose".toList, some 'v', .verbose⟩, ⟨"root".toList, none, .root⟩]

def named? (f : Form) (name : Text) : Option Slot :=
  (f.flags.find? (·.name = name)).map (·.slot)

def lettered? (f : Form) (letter : Char) : Option Slot :=
  (f.flags.find? (·.letter = some letter)).map (·.slot)

end Form

inductive Verb where
  | expand
  | segment
  | add
  | remove
  | files
deriving DecidableEq, Repr

namespace Verb

def ofName? (name : Text) : Option Verb :=
  match String.ofList name with
  | "expand" => some .expand
  | "segment" => some .segment
  | "add" => some .add
  | "remove" => some .remove
  | "files" => some .files
  | _ => none

def form : Verb → Form
  | .expand => ⟨Form.common ++ [⟨"output".toList, some 'o', .output⟩], [.file], []⟩
  | .segment => ⟨Form.common ++ [⟨"json".toList, none, .json⟩], [.file], []⟩
  | .add => ⟨Form.common, [.file, .paths], [.file, .paths]⟩
  | .remove => ⟨Form.common, [.file, .paths], [.file, .paths]⟩
  | .files => ⟨Form.common, [], []⟩

end Verb

end CommandLine

end PromptDoc
