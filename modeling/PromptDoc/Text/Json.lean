/-
# PromptDoc.Text.Json — JSON values and their indented form

Strings escape the quote, the backslash and the control characters below U+0020,
and nothing else. Members and elements stand on lines of their own, two spaces
deeper than what holds them; an empty array or object is written without a line
end inside.
-/
import PromptDoc.Text.Basic

namespace PromptDoc

set_option autoImplicit false

/-- The JSON values that the library writes. -/
inductive Json where
  | null
  | string (value : Text)
  | array (elements : List Json)
  | object (members : List (Text × Json))

namespace Json

def hexByte (n : Nat) : Text := [Nat.digitChar (n / 16 % 16), Nat.digitChar (n % 16)]

/-- How a character is written inside a JSON string. -/
def escapeChar (c : Char) : Text :=
  if c == '\x22' then "\\\"".toList
  else if c == '\x5c' then "\\\\".toList
  else if c == '\x08' then "\\b".toList
  else if c == '\x0c' then "\\f".toList
  else if c == '\n' then "\\n".toList
  else if c == '\r' then "\\r".toList
  else if c == '\t' then "\\t".toList
  else if c.toNat < 0x20 then "\\u00".toList ++ hexByte c.toNat
  else [c]

def renderString (t : Text) : Text := ['\x22'] ++ t.flatMap escapeChar ++ ['\x22']

/-- A line end and the indentation of a depth. -/
def newline (depth : Nat) : Text := '\n' :: List.replicate (2 * depth) ' '

mutual

/-- The indented form of a value that stands at a depth. -/
def renderAt (depth : Nat) : Json → Text
  | .null => "null".toList
  | .string value => renderString value
  | .array [] => "[]".toList
  | .array (e :: es) =>
    ['['] ++ newline (depth + 1) ++ renderAt (depth + 1) e ++ renderElements (depth + 1) es ++
      newline depth ++ [']']
  | .object [] => ['\x7b', '\x7d']
  | .object ((name, value) :: ms) =>
    ['\x7b'] ++ newline (depth + 1) ++ renderString name ++ ": ".toList ++
      renderAt (depth + 1) value ++ renderMembers (depth + 1) ms ++ newline depth ++ ['\x7d']

def renderElements (depth : Nat) : List Json → Text
  | [] => []
  | e :: es => [','] ++ newline depth ++ renderAt depth e ++ renderElements depth es

def renderMembers (depth : Nat) : List (Text × Json) → Text
  | [] => []
  | (name, value) :: ms =>
    [','] ++ newline depth ++ renderString name ++ ": ".toList ++ renderAt depth value ++
      renderMembers depth ms

end

def render (value : Json) : Text := renderAt 0 value

end Json

end PromptDoc
