/-
# PromptDoc.Text.Lowercase — the lower case of a text

Every character is replaced by its lower case of its own, which is one character
for all but U+0130 (`lowerChar`). The one rule that looks at the neighbours is
the final sigma: a capital sigma that ends a word becomes `ς` instead of `σ`
(`endsWord`).
-/
import PromptDoc.Text.Basic
import PromptDoc.Text.CaseData

namespace PromptDoc.Text

set_option autoImplicit false

def lowerByRun (c : Char) : Char :=
  let n := c.toNat
  match CaseData.lowerRuns.find? fun (first, last, step, _) =>
      first ≤ n && n ≤ last && (n - first) % step == 0 with
  | some (_, _, _, shift) => Char.ofNat (n + shift).toNat
  | none => c

def lowerChar (c : Char) : Text :=
  if c.toNat < 0x80 then [c.toLower]
  else if c.toNat == 0x130 then ['i', Char.ofNat 0x307]
  else [lowerByRun c]

/-- Whether the first character that is not ignorable for case is a cased one. -/
def startsCased (t : Text) : Bool :=
  match t.dropWhile CaseData.caseIgnorable.has with
  | c :: _ => CaseData.cased.has c
  | [] => false

/-- Whether a letter between `before`, read backwards, and `after` ends a word. -/
def endsWord (before after : Text) : Bool := startsCased before && !startsCased after

/-- The lower case of a text that follows `before`, read backwards. -/
def lowercaseAfter : Text → Text → Text
  | _, [] => []
  | before, c :: cs =>
    (if c == 'Σ' then [if endsWord before cs then 'ς' else 'σ'] else lowerChar c) ++
      lowercaseAfter (c :: before) cs

def lowercase (t : Text) : Text := lowercaseAfter [] t

end PromptDoc.Text
