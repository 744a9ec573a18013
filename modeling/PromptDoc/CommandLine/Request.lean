/-
# PromptDoc.CommandLine.Request — what arguments ask for

Arguments name one command. The options that every command accepts may stand
before its name or after it, and a root given after it wins. What is wrong with
the command's own arguments is reported before what is wrong with those in front
of it.
-/
import PromptDoc.CommandLine.Reading

namespace PromptDoc

set_option autoImplicit false

namespace CommandLine

/-- A command with its operands and options. -/
inductive Action where
  /-- Expands a document, from a file or standard input, to a file or standard
  output. -/
  | expand (file output : Option Text)
  /-- Shows the segments of a document. -/
  | segment (file : Option Text) (json : Bool)
  | add (file : Text) (paths : List Text)
  | remove (file : Text) (paths : List Text)
  /-- Lists the files of the workspace. -/
  | files
deriving DecidableEq, Repr

/-- The action that the arguments of a command describe. -/
def Action.ofReading (verb : Verb) (r : Reading) : Action :=
  let first (slot : Slot) : Option Text := (r.values slot).head?
  match verb with
  | .expand => .expand (first .file) (first .output)
  | .segment => .segment (first .file) (r.has .json)
  | .add => .add ((first .file).getD []) (r.values .paths)
  | .remove => .remove ((first .file).getD []) (r.values .paths)
  | .files => .files

structure Request where
  action : Action
  root : Option Text := none
  verbose : Bool := false
deriving DecidableEq, Repr

namespace Request

def readAll (f : Form) (r : Reading) : List Text → Except Usage Reading
  | [] => r.settle
  | a :: arguments =>
    match r.argument f a with
    | .error u => .error u
    | .ok r => readAll f r arguments

/-- The arguments of a command, with all that it needs. -/
def readVerb (verb : Verb) (arguments : List Text) : Except Usage Reading := do
  let f := verb.form
  let r ← readAll f { operands := f.operands } arguments
  if f.required.all r.has then return r else throw .missingOperand

/-- The request of a command whose arguments follow those in front of it. -/
def combine (front : Reading) (verb : Verb) (own : Reading) : Request where
  action := .ofReading verb own
  root := (own.values .root ++ front.values .root).head?
  verbose := own.has .verbose || front.has .verbose

def helpWord : Text := "help".toList

/-- Whether a word stands where a command stands. -/
def isCommandWord (word : Text) : Bool := word = helpWord || (Verb.ofName? word).isSome

/-- The answer to the words after `help`. -/
def helpAbout : List Text → Usage
  | [] => .help
  | [word] => if isCommandWord word then .help else .unknownCommand
  | _ => .unknownCommand

/-- The options in front of a command. -/
def frontForm : Form := { flags := Form.common }

/-- Reads arguments up to the command that they name. -/
def readFront (r : Reading) : List Text → Except Usage Request
  | [] => do
    let r ← r.settle
    throw (if r.given.isEmpty then .nothing else .missingCommand)
  | a :: arguments =>
    if r.operandsOnly then
      .error (if isCommandWord a then .unknownArgument else .unknownCommand)
    else if r.wantsValue then
      match r.argument frontForm a with
      | .error u => .error u
      | .ok r => readFront r arguments
    else if a = helpWord then .error (helpAbout arguments)
    else
      match Verb.ofName? a with
      | some verb => do
        let own ← readVerb verb arguments
        let front ← r.settle
        return combine front verb own
      | none =>
        match a with
        | '-' :: _ :: _ =>
          match r.argument frontForm a with
          | .error u => .error u
          | .ok r => readFront r arguments
        | _ => .error .unknownCommand

end Request

def parse (arguments : List Text) : Except Usage Request := Request.readFront {} arguments

end CommandLine

end PromptDoc
