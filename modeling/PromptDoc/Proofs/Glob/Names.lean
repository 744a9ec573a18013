/-
# PromptDoc.Proofs.Glob.Names — patterns that name something in any directory

A character without a meaning of its own is read as itself, so `**/` before a text of such
characters is read as directories at the beginning and the characters
(`ofText_atAnyDepth`), and with `/**` behind it as the contents of what is named.

Such a pattern compares bytes, but a slash among the bytes of a path is a slash of the path, and
the bytes before and behind it are those of one text only.  So what it asks for are components:
the last ones of the path (`spells_components_iff`), or some before its last one
(`exists_spells_components_iff`).
-/
import PromptDoc.Proofs.Exclude.Members
import PromptDoc.Proofs.Glob.Outline
import PromptDoc.Proofs.Glob.Words
import PromptDoc.Proofs.Text.Blanks

namespace PromptDoc

set_option autoImplicit false

namespace Glob

/-! ## Reading -/

def isSpecial (c : Char) : Bool := "*?[\x7b\x7d".toList.contains c

namespace Reader

variable {r : Reader}

theorem next_literal (top : r.AtTop) {c : Char} (plain : isSpecial c = false) (cs : Text) :
    r.next c cs = .ok ((r.push (.literal c)).after c, cs) := by
  have others : c ≠ '*' ∧ c ≠ '?' ∧ c ≠ '[' ∧ c ≠ '\x7b' ∧ c ≠ '\x7d' := by
    simpa [isSpecial] using plain
  have itself : r.plain c = .ok (r.push (.literal c)) := by
    unfold Reader.plain
    split
    · simp at others
    · simp at others
    · simp at others
    · simp [nextBranch, top.outer]
    · rfl
  simp [next, top.openClass, others, itself, Except.map]

/-- Characters that stand for themselves are put on the tokens one by one. -/
theorem read_literals (top : r.AtTop) {name : Text} (plain : ∀ c ∈ name, isSpecial c = false) :
    ∃ r' : Reader, r'.AtTop ∧ r'.inner.tokens.reverse = r.inner.tokens.reverse ++ name.map .literal ∧
      ∀ t ts, r'.read t = .ok ts → r.read (name ++ t) = .ok ts := by
  induction name generalizing r with
  | nil => exact ⟨r, top, by simp, fun t ts read => read⟩
  | cons c cs ih =>
      have top' : ((r.push (.literal c)).after c).AtTop := ⟨top.outer, top.openClass⟩
      obtain ⟨r', top'', tokens, more⟩ :=
        ih top' fun d inside => plain d (List.mem_cons_of_mem c inside)
      refine ⟨r', top'', by simpa [push, after] using tokens, fun t ts read => ?_⟩
      exact read_cons_eq_ok_iff.2
        ⟨_, _, next_literal top (plain c List.mem_cons_self) _, more t ts read⟩

end Reader

open Reader

/-- The tokens of a name in any directory. -/
def atAnyDepth (name : Text) : List Token := .leading :: name.map .literal

/-- A name in any directory, and its contents. -/
theorem ofText_atAnyDepth {name : Text} (plain : ∀ c ∈ name, isSpecial c = false) :
    ofText ("**/".toList ++ name) = .ok ⟨atAnyDepth name⟩ ∧
      ofText ("**/".toList ++ name ++ contents) = .ok ⟨atAnyDepth name ++ [.trailing]⟩ := by
  have top : ((({} : Reader).push .leading).after '/').AtTop := ⟨rfl, rfl⟩
  obtain ⟨r, top', tokens, more⟩ := read_literals top plain
  have tokens' : r.inner.tokens.reverse = atAnyDepth name := by
    simpa [push, after, atAnyDepth] using tokens
  have first (t : Text) (ts : List Token) (read : r.read t = .ok ts) :
      ofText ("**/".toList ++ (name ++ t)) = .ok ⟨ts⟩ := by
    have stars := next_twoStars (r := {}) rfl ('/' :: (name ++ t))
    rw [(twoStars_first rfl (name ++ t)).2] at stars
    exact ofText_eq_ok_iff.2 (read_cons_eq_ok_iff.2 ⟨_, _, stars, more t ts read⟩)
  constructor
  · simpa using first [] _ (read_nil_eq_ok_iff.2 ⟨top', tokens'.symm⟩)
  · have last := first contents _ (read_contents top')
    rwa [tokens', ← List.append_assoc] at last

/-! ## Components -/

/-- A component stands at the front of a path or behind a slash. -/
theorem stands_leading_above (above : List Text) {below : List Text} (further : below ≠ []) :
    ∃ front, Stands .leading front ∧ Text.encode (['/'].intercalate (above ++ below)) =
      front ++ Text.encode (['/'].intercalate below) := by
  by_cases first : above = []
  · exact ⟨[], .leadingNone, by rw [first]; rfl⟩
  · refine ⟨_, .leading (Text.encode (['/'].intercalate above)), ?_⟩
    rw [Text.intercalate_append first further, Text.encode_append, Text.encode_append]
    rfl

/-- The bytes of a path are cut at a slash where the path is. -/
theorem encode_eq_append_slash_iff {t : Text} {front back : Bytes} :
    Text.encode t = front ++ slash :: back ↔
      ∃ a b, t = a ++ '/' :: b ∧ Text.encode a = front ∧ Text.encode b = back :=
  Text.encode_eq_append_cons_iff (c := '/') (by decide)

section Components

variable {components : List Text} {path : Text} (nonempty : components ≠ [])
  (free : ∀ c ∈ components, '/' ∉ c)
include nonempty free

/-- Components in any directory spell the paths that end in them. -/
theorem spells_components_iff :
    Spells (atAnyDepth (['/'].intercalate components)) (Text.encode path) ↔
      components <:+ path.splitOn '/' := by
  have split : (['/'].intercalate components).splitOn '/' = components :=
    List.splitOn_intercalate '/' free nonempty
  rw [atAnyDepth, spells_anywhere]
  constructor
  · rintro ⟨front, stands, whole⟩
    rcases stands_leading.1 stands with rfl | ⟨above, rfl⟩
    · rw [Text.encode_injective whole, split]
    · rw [List.append_assoc, List.singleton_append] at whole
      obtain ⟨a, b, rfl, -, below⟩ := encode_eq_append_slash_iff.1 whole
      rw [Text.encode_injective below, List.splitOn_append_cons_self, split]
      exact List.suffix_append _ _
  · rintro ⟨above, whole⟩
    obtain ⟨front, stands, bytes⟩ := stands_leading_above above nonempty
    rw [whole, List.intercalate_splitOn] at bytes
    exact ⟨front, stands, bytes⟩

/-- The front of a path, up to a slash, ends in components if they stand before the last one. -/
theorem exists_spells_components_iff :
    (∃ front inside, Spells (atAnyDepth (['/'].intercalate components)) front ∧
      Text.encode path = front ++ slash :: inside) ↔
        components <:+: (path.splitOn '/').dropLast := by
  constructor
  · rintro ⟨front, inside, spells, whole⟩
    obtain ⟨a, b, rfl, rfl, -⟩ := encode_eq_append_slash_iff.1 whole
    have above := (spells_components_iff nonempty free).1 spells
    rw [List.splitOn_append_cons_self, List.dropLast_append_of_ne_nil (List.splitOn_ne_nil '/' b)]
    exact List.infix_append_of_infix_left above.isInfix
  · rintro ⟨above, below, split⟩
    obtain ⟨last, whole⟩ : ∃ last, path.splitOn '/' = above ++ (components ++ (below ++ [last])) := by
      refine ⟨(path.splitOn '/').getLast (List.splitOn_ne_nil '/' path), ?_⟩
      nth_rewrite 1 [← List.dropLast_append_getLast (List.splitOn_ne_nil '/' path)]
      rw [← split]
      simp
    obtain ⟨front, stands, bytes⟩ :=
      @stands_leading_above above (components ++ (below ++ [last])) (by simp)
    rw [← whole, List.intercalate_splitOn, Text.intercalate_append nonempty (by simp),
      Text.encode_append, Text.encode_append] at bytes
    refine ⟨_, Text.encode (['/'].intercalate (below ++ [last])),
      spells_anywhere.2 ⟨front, stands, rfl⟩, ?_⟩
    rw [bytes, List.append_assoc, List.append_assoc]
    rfl

end Components

/-! ## What they match -/

theorem all_isLiteral_literals (name : Text) (except : List Char) :
    (name.map .literal).all (isLiteral except) = true ↔ ∀ c ∈ name, c ∉ except := by
  simp [isLiteral]

/-- A name without a slash is compared with the last component alone. -/
theorem isByName_atAnyDepth {name : Text} (nonempty : name ≠ []) :
    isByName (atAnyDepth name) = true ↔ '/' ∉ name := by
  obtain ⟨c, cs, rfl⟩ := List.exists_cons_of_ne_nil nonempty
  have single : isPlainName (atAnyDepth (c :: cs)) = ((c :: cs).map .literal).all (isLiteral ['/']) :=
    rfl
  have noStar : isAnyWithExtension (atAnyDepth (c :: cs)) = false := rfl
  have ends : (afterMany (afterLeading (atAnyDepth (c :: cs)))).all (isLiteral []) = true :=
    (all_isLiteral_literals (c :: cs) []).2 fun _ _ => List.not_mem_nil
  rw [isByName, noStar, ends, single, Bool.or_false, Bool.not_true, Bool.false_and, Bool.or_false,
    all_isLiteral_literals]
  simp only [List.mem_singleton]
  exact ⟨fun others inside => others '/' inside rfl, fun free d inside same => free (same ▸ inside)⟩

section Matches

variable {components : List Text} {path : Text} (nonempty : components ≠ [])
  (solid : ∀ c ∈ components, c ≠ []) (free : ∀ c ∈ components, '/' ∉ c)
include nonempty free

theorem matches_contents_iff :
    (Glob.mk (atAnyDepth (['/'].intercalate components) ++ [.trailing])).matches path = true ↔
      components <:+: (path.splitOn '/').dropLast :=
  (matches_append_trailing_iff _).trans (exists_spells_components_iff nonempty free)

include solid in
theorem matches_atAnyDepth_iff :
    (Glob.mk (atAnyDepth (['/'].intercalate components))).matches path = true ↔
      components <:+ path.splitOn '/' ∧ components ≠ ["..".toList] := by
  obtain ⟨c, cs, rfl⟩ := List.exists_cons_of_ne_nil nonempty
  have named : ['/'].intercalate (c :: cs) ≠ [] :=
    Text.intercalate_ne_nil (solid c List.mem_cons_self) cs
  have several : atAnyDepth (['/'].intercalate (c :: cs)) ≠ [.leading] := by
    simp [atAnyDepth, named]
  have byName := isByName_atAnyDepth named
  rw [matches_iff, or_iff_right several, spells_components_iff nonempty free, and_comm]
  refine and_congr_right fun last => ?_
  cases cs with
  | nil =>
      -- One component is compared with the name of the path, which `..` is not.
      have alone : isByName (atAnyDepth (['/'].intercalate [c])) = true :=
        byName.2 (by simpa using free c List.mem_cons_self)
      have name : (path.splitOn '/').getLast? = some c := by
        obtain ⟨above, split⟩ := last
        rw [← split, List.getLast?_concat]
      rw [alone, hasName, name]
      simp
  | cons d ds =>
      have compared : isByName (atAnyDepth (['/'].intercalate (c :: d :: ds))) = false := by
        rw [Bool.eq_false_iff, Ne, byName]
        simp
      exact iff_of_true (Or.inr compared) (by simp)

end Matches

/-! ## How deep they are nested -/

theorem foldl_max_le {n : Nat} {depths : List Nat} {start : Nat} (first : start ≤ n)
    (le : ∀ d ∈ depths, d ≤ n) : depths.foldl max start ≤ n := by
  induction depths generalizing start with
  | nil => exact first
  | cons d ds ih =>
      rw [List.foldl_cons]
      exact ih (max_le first (le d List.mem_cons_self)) fun e inside =>
        le e (List.mem_cons_of_mem d inside)

theorem nest_le {n : Nat} {depths : List Nat} (le : ∀ d ∈ depths, d ≤ n) : nest depths ≤ n + 1 := by
  unfold nest
  split
  · exact Nat.zero_le _
  · rename_i d
    exact Nat.le_succ_of_le (le d List.mem_cons_self)
  · exact Nat.succ_le_succ (foldl_max_le (Nat.zero_le n) le)

theorem mem_sequenceParts {ts : List Token} {d : Nat} :
    d ∈ sequenceParts ts ↔ ∃ t ∈ ts, d ∈ parts t := by
  induction ts with
  | nil => simp [sequenceParts]
  | cons t ts ih => simp [sequenceParts, ih]

/-- A name in any directory is compared by its bytes. -/
theorem isUsable_atAnyDepth {name : Text} (nonempty : name ≠ []) :
    (Glob.mk (atAnyDepth name)).IsUsable := by
  obtain ⟨c, cs, rfl⟩ := List.exists_cons_of_ne_nil nonempty
  have ends : isEnding (atAnyDepth (c :: cs)) = true :=
    (all_isLiteral_literals cs []).2 fun _ _ => List.not_mem_nil
  intro compared
  simp [comparison, ends] at compared

/-- The expression for its contents is nested as deep as that of the directories before it. -/
theorem isUsable_contents (name : Text) :
    (Glob.mk (atAnyDepth name ++ [.trailing])).IsUsable := by
  intro _
  have flat : ∀ d ∈ [0, 0, 0] ++ sequenceParts (atAnyDepth name ++ [.trailing]), d ≤ 4 := by
    intro d inside
    rcases List.mem_append.1 inside with frame | inside
    · simp at frame
      omega
    · obtain ⟨t, listed, part⟩ := mem_sequenceParts.1 inside
      simp only [atAnyDepth, List.cons_append, List.mem_cons, List.mem_append, List.mem_map,
        List.not_mem_nil, or_false] at listed
      rcases listed with rfl | ⟨c, -, rfl⟩ | rfl
      · simp [parts] at part
        omega
      · simp [parts] at part
        omega
      · simp [parts] at part
        omega
  have shallow : (Glob.mk (atAnyDepth name ++ [.trailing])).depth ≤ 5 := nest_le flat
  exact decide_eq_false (Nat.not_lt.2 (shallow.trans (by decide)))

end Glob

end PromptDoc
