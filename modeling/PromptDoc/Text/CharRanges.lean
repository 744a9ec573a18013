/-
# PromptDoc.Text.CharRanges — classes of characters as lists of code point ranges
-/
namespace PromptDoc

set_option autoImplicit false

/-- A class of characters: ranges of code points, both ends included, in
increasing order. -/
abbrev CharRanges := List (Nat × Nat)

namespace CharRanges

def has (ranges : CharRanges) (c : Char) : Bool :=
  ranges.any fun (low, high) => low ≤ c.toNat && c.toNat ≤ high

end CharRanges

end PromptDoc
