/-
# PromptDoc.Segment.Table — showing how a document splits

Two forms: a table with one line per span (kind, byte range and a short
description), and the segments as JSON.
-/
import PromptDoc.Segment.Basic
import PromptDoc.Text.Quoted
import PromptDoc.Text.Json

namespace PromptDoc

set_option autoImplicit false

namespace Segment

/-- A text on one line, at most 48 characters of it. -/
def preview (content : Text) : Text := Text.ellipsis 48 (Text.quote content)

def detail : Segment → Text
  | .text content => preview content
  | .note content => preview content
  | .context [] => "(no paths)".toList
  | .context paths => ", ".toList.intercalate paths
  | .diff (some branch) => "branch ".toList ++ branch
  | .diff none => "working tree".toList

def toJson : Segment → Json
  | .text content => typed "text" "content" (.string content)
  | .context paths => typed "context_block" "paths" (.array (paths.map .string))
  | .diff branch => typed "diff_block" "branch" ((branch.map Json.string).getD .null)
  | .note content => typed "note" "content" (.string content)
where
  /-- An object with its type and one more member. -/
  typed (type member : String) (value : Json) : Json :=
    .object [("type".toList, .string type.toList), (member.toList, value)]

end Segment

namespace Span

def range (s : Span) : Text := Text.ofNat s.start ++ "..".toList ++ Text.ofNat s.stop

def row (s : Span) : Text :=
  Text.padRight ' ' 8 s.segment.kind ++ [' '] ++ Text.padRight ' ' 12 s.range ++ [' '] ++
    s.segment.detail ++ ['\n']

def table (spans : List Span) : Text := spans.flatMap row

def json (spans : List Span) : Text := (Json.array (spans.map (·.segment.toJson))).render

end Span

end PromptDoc
