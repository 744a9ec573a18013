/-
# PromptDoc.Config.Basic — the settings of a workspace

A `Config` may hold anything; `Config.validate` says whether it can be used: its
tag spellings are accepted, its diff command has a program, and its languages
are keyed by extensions without a dot. The first of these that fails is the one
reported.
-/
import PromptDoc.Config.LanguageMap
import PromptDoc.Config.Words
import PromptDoc.TagSet
import PromptDoc.Text.Lowercase

namespace PromptDoc

set_option autoImplicit false

/-- The settings of a workspace. -/
structure Config where
  /-- The spellings of the directive tags. -/
  spellings : Spellings := .standard
  /-- The command line that a diff is had from; the ref is its last argument. -/
  diffCommand : Text := "git diff".toList
  /-- Languages that override the built-in ones, by extension. -/
  languages : LanguageMap := .empty
  /-- What is left out of listings when a workspace says nothing itself. -/
  defaultExcludes : List Text :=
    ["**/.git/**".toList, "**/node_modules/**".toList, "**/dist/**".toList,
      "**/build/**".toList, "**/.DS_Store".toList, "**/coverage/**".toList]

/-- A program and its arguments. -/
structure Command where
  program : Text
  arguments : List Text
deriving DecidableEq, Repr

namespace Command

def words (c : Command) : List Text := c.program :: c.arguments

end Command

/-- Why a config cannot be used. -/
inductive ConfigDefect where
  | tags (defect : TagDefect)
  /-- The diff command leaves a quote open. -/
  | openQuote (command : Text)
  /-- The diff command has no words. -/
  | noCommand
  /-- A language has an empty extension. -/
  | emptyExtension
  /-- A language has an extension that starts with a dot. -/
  | dottedExtension (extension : Text)
deriving DecidableEq, Repr

namespace ConfigDefect

def message (d : ConfigDefect) : Text :=
  "config validation failed: ".toList ++
    match d with
    | .tags defect => defect.message
    | .openQuote command =>
      "cannot parse diff_command '".toList ++ command ++ "': missing closing quote".toList
    | .noCommand => "diff_command must not be empty".toList
    | .emptyExtension => "languages keys must be non-empty".toList
    | .dottedExtension extension =>
      "languages keys must not have leading dots (found '".toList ++ extension ++
        "'). Use '".toList ++ extension.dropWhile (· = '.') ++ "' instead.".toList

end ConfigDefect

namespace Config

def tagSet (c : Config) : Except TagDefect TagSet := TagSet.ofSpellings c.spellings

/-- The program of the diff command and the arguments that come with it. -/
def diffArgv (c : Config) : Except ConfigDefect Command :=
  match Words.split? c.diffCommand with
  | none => .error (.openQuote c.diffCommand)
  | some [] => .error .noCommand
  | some (program :: arguments) => .ok { program, arguments }

def extensionDefect? (extension : Text) : Option ConfigDefect :=
  match extension with
  | [] => some .emptyExtension
  | '.' :: _ => some (.dottedExtension extension)
  | _ => none

def defect? (c : Config) : Option ConfigDefect :=
  match c.spellings.defect? with
  | some defect => some (.tags defect)
  | none =>
    match c.diffArgv with
    | .error defect => some defect
    | .ok _ => c.languages.entries.findSome? fun (extension, _) => extensionDefect? extension

/-- Whether a config can be used, or the first reason why not. -/
def validate (c : Config) : Except ConfigDefect Unit :=
  match c.defect? with
  | some defect => .error defect
  | none => .ok ()

/-- The languages with their extensions in lower case, in the order of the keys. -/
def normalizedLanguages (c : Config) : List (Text × Text) :=
  c.languages.entries.map fun (extension, language) => (Text.lowercase extension, language)

end Config

end PromptDoc
