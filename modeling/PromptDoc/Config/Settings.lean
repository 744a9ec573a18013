/-
# PromptDoc.Config.Settings — settings written in YAML

A settings file is one mapping. The settings that are not given keep their
standard values, and members that are not settings are ignored; a setting given
twice is an error, as is a value of the wrong shape. Texts may be written as any
scalar, so `5` and `null` are texts here.
-/
import PromptDoc.Config.Basic
import PromptDoc.Yaml.Node

namespace PromptDoc.Config

set_option autoImplicit false

open Yaml (Node Tree)

def texts? (t : Tree) (node : Node) : Option (List Text) := do
  (← t.items? node).mapM t.text?

/-- Languages by extension; of two with one extension the later stands. -/
def languages? (t : Tree) (node : Node) : Option LanguageMap := do
  let entries ← (← t.entries? node).mapM fun (key, value) => do
    return (← t.text? key, ← t.text? value)
  return .ofList entries

/-- The config with one setting read from a node. -/
def set? (t : Tree) (c : Config) (name : Text) (node : Node) : Option Config :=
  match String.ofList name with
  | "context_tags" => do
    return { c with spellings := { c.spellings with context := ← texts? t node } }
  | "diff_tags" => do return { c with spellings := { c.spellings with diff := ← texts? t node } }
  | "note_tags" => do return { c with spellings := { c.spellings with note := ← texts? t node } }
  | "diff_command" => do return { c with diffCommand := ← t.text? node }
  | "languages" => do return { c with languages := ← languages? t node }
  | "default_excludes" => do return { c with defaultExcludes := ← texts? t node }
  | _ => some c

def names : List Text :=
  ["context_tags".toList, "diff_tags".toList, "note_tags".toList, "diff_command".toList,
    "languages".toList, "default_excludes".toList]

/-- Reads settings into a config; `seen` are the ones read before. -/
def setAll? (t : Tree) : List Text → Config → List (Node × Node) → Option Config
  | _, c, [] => some c
  | seen, c, (key, value) :: entries => do
    let name ← t.text? key
    if names.contains name && seen.contains name then none
    setAll? t (name :: seen) (← set? t c name value) entries

/-- The config that a settings file writes, not yet validated. -/
def ofYaml? (text : Text) : Option Config := do
  let t ← Tree.ofText? text
  setAll? t [] {} (← t.entries? t.root)

end PromptDoc.Config
