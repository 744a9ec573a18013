/-
# PromptDoc.Tool.Cat — printing files

`cat` prints the files that its arguments name and complains about each one that
it cannot read. On request it numbers the lines and marks their ends.
-/
import PromptDoc.Tool.Lines

namespace PromptDoc.Tool.Cat

set_option autoImplicit false

def run (c : Call) : ProgramOutput :=
  let options := letters c.arguments
  let has (letter : Char) : Bool := options.contains letter
  let marked (l : Bytes) : Bytes := if l.getLast? = some 10 then l.dropLast ++ [36, 10] else l
  let o := eachFile c (operands c.arguments) 1 (plainComplaint "cat") id
  let ls := if has 'E' || has 'A' || has 'e' then (lines o.stdout).map marked else lines o.stdout
  { o with stdout := if has 'n' then numbered true 1 ls else ls.flatten }

end PromptDoc.Tool.Cat
