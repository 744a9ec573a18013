/-
# PromptDoc.Config.Words — a command line as words

Words stand between spaces, tabs and line feeds. Single quotes keep everything
as it is; double quotes keep all but a backslash before `$`, a back quote, a
double quote, a backslash or a line feed; outside quotes a backslash keeps the
next character. A backslash before a line feed joins two lines. `#` at the start
of a word begins a comment, which runs to the end of its line. The one thing that
can be wrong is a quote that is never closed.
-/
import PromptDoc.Text.Basic

namespace PromptDoc.Words

set_option autoImplicit false

/-- Where in a command line a character stands. -/
inductive Mode where
  /-- Between two words. -/
  | between
  /-- In a comment. -/
  | comment
  /-- After a backslash between two words. -/
  | leadingEscape
  /-- In a word, outside quotes. -/
  | bare
  /-- After a backslash in a word. -/
  | bareEscape
  /-- In single quotes. -/
  | single
  /-- In double quotes. -/
  | double
  /-- After a backslash in double quotes. -/
  | doubleEscape
deriving DecidableEq, Repr

def isSeparator (c : Char) : Bool := c == ' ' || c == '\t' || c == '\n'

/-- Characters that a backslash escapes inside double quotes. -/
def isEscapable (c : Char) : Bool :=
  c == '$' || c == '\x60' || c == '\x22' || c == '\x5c'

/-- The words of the rest of a command line, the first of them beginning with
`word`; none if a quote is left open. -/
def splitFrom : Mode → Text → Text → Option (List Text)
  | .between, _, [] => some []
  | .comment, _, [] => some []
  | .leadingEscape, word, [] => some [word ++ ['\x5c']]
  | .bare, word, [] => some [word]
  | .bareEscape, word, [] => some [word ++ ['\x5c']]
  | .single, _, [] => none
  | .double, _, [] => none
  | .doubleEscape, _, [] => none
  | .between, word, c :: cs =>
    if c = '\x27' then splitFrom .single word cs
    else if c = '\x22' then splitFrom .double word cs
    else if c = '\x5c' then splitFrom .leadingEscape word cs
    else if isSeparator c then splitFrom .between word cs
    else if c = '#' then splitFrom .comment word cs
    else splitFrom .bare (word ++ [c]) cs
  | .comment, word, c :: cs =>
    if c = '\n' then splitFrom .between word cs else splitFrom .comment word cs
  | .leadingEscape, word, c :: cs =>
    if c = '\n' then splitFrom .between word cs else splitFrom .bare (word ++ [c]) cs
  | .bare, word, c :: cs =>
    if c = '\x27' then splitFrom .single word cs
    else if c = '\x22' then splitFrom .double word cs
    else if c = '\x5c' then splitFrom .bareEscape word cs
    else if isSeparator c then (splitFrom .between [] cs).map (word :: ·)
    else splitFrom .bare (word ++ [c]) cs
  | .bareEscape, word, c :: cs =>
    if c = '\n' then splitFrom .bare word cs else splitFrom .bare (word ++ [c]) cs
  | .single, word, c :: cs =>
    if c = '\x27' then splitFrom .bare word cs else splitFrom .single (word ++ [c]) cs
  | .double, word, c :: cs =>
    if c = '\x22' then splitFrom .bare word cs
    else if c = '\x5c' then splitFrom .doubleEscape word cs
    else splitFrom .double (word ++ [c]) cs
  | .doubleEscape, word, c :: cs =>
    if c = '\n' then splitFrom .double word cs
    else if isEscapable c then splitFrom .double (word ++ [c]) cs
    else splitFrom .double (word ++ ['\x5c', c]) cs

/-- The words of a command line; none if a quote is left open. -/
def split? (t : Text) : Option (List Text) := splitFrom .between [] t

end PromptDoc.Words
