/-
# PromptDoc.Proofs.Exclude.NormalForm — the form of the patterns of a `.gitignore`

A line becomes a pattern by three rewrites, each of which may make another one due: a slash is
taken off its front, `**/` is put there, and the slashes at its end, or the missing dot, turn it
into what is in a directory.  What comes out is `Normal`: it begins with `**/`, does not end in a
slash, and ends in `/**` or holds a dot.

These are three reasons for a pattern to be left alone.  It begins with a star, so it is no
comment, no exception and not bound to the root; it is at any depth already; and neither a slash
nor a missing dot asks for contents (`Normal.pattern_eq`).  The rewrites bring no blanks to the
ends of a line and no line feed into it, so patterns written on lines are read back as they are
(`patterns_intercalate`), and a second conversion only adds the last pattern once more
(`patterns_normal`).
-/
import PromptDoc.Exclude.Gitignore
import PromptDoc.Proofs.Text.Blanks

namespace PromptDoc

set_option autoImplicit false

open Text

namespace Gitignore

/-- A line that is kept: it is not blank, no comment and no exception. -/
def Kept (line : Text) : Prop :=
  Text.trim line ≠ [] ∧ (Text.trim line).head? ≠ some '#' ∧ (Text.trim line).head? ≠ some '!'

instance : DecidablePred Kept := fun line =>
  inferInstanceAs (Decidable (Text.trim line ≠ [] ∧ (Text.trim line).head? ≠ some '#' ∧
    (Text.trim line).head? ≠ some '!'))

/-- A pattern that applies at any depth, and to what is in a directory or to a name with a dot. -/
structure Normal (p : Text) : Prop where
  anywhere : "**/".toList <+: p
  ends : p.getLast? ≠ some '/'
  named : "/**".toList <:+ p ∨ '.' ∈ p

variable {p rule line : Text}

/-! ## The rewrites -/

theorem isRule_iff :
    isRule line = true ↔ line ≠ [] ∧ line.head? ≠ some '#' ∧ line.head? ≠ some '!' := by
  cases line <;> simp [isRule]

theorem unanchored_suffix (rule : Text) : unanchored rule <:+ rule := by
  unfold unanchored
  split
  · exact List.suffix_cons _ _
  · exact List.suffix_rfl

theorem anywhere_eq (rule : Text) : anywhere rule = rule ∨ anywhere rule = "**/".toList ++ rule := by
  unfold anywhere
  split
  · exact Or.inl rfl
  · exact Or.inr rfl

theorem prefix_anywhere (rule : Text) : "**/".toList <+: anywhere rule := by
  unfold anywhere
  split
  · rename_i begins
    exact List.isPrefixOf_iff_prefix.1 begins
  · exact List.prefix_append _ _

/-- Taking the slashes off the end of a pattern takes nothing that `/**` does not bring back. -/
theorem prefix_contents (begins : "**/".toList <+: p) :
    "**/".toList <+: (p.reverse.dropWhile (· = '/')).reverse ++ "/**".toList := by
  obtain ⟨rest, rfl⟩ := begins
  rw [List.reverse_append, List.dropWhile_append]
  split
  · exact ⟨['*', '*'], rfl⟩
  · rw [List.reverse_append, List.reverse_reverse, List.append_assoc]
    exact List.prefix_append _ _

/-- A pattern is left as it is if it neither ends in a slash nor lacks contents or a dot; any other
one gets contents. -/
theorem withContents_cases (begins : "**/".toList <+: p) :
    (Normal p ∧ withContents p = p) ∨
      ∃ front, front <+: p ∧ withContents p = front ++ "/**".toList ∧
        "**/".toList <+: withContents p := by
  unfold withContents
  split
  · exact Or.inr ⟨_, List.rdropWhile_prefix _ p, rfl, prefix_contents begins⟩
  · rename_i ends
    split
    · rename_i named
      simp only [Bool.or_eq_true, List.isSuffixOf_iff_suffix, List.contains_iff_mem] at named
      exact Or.inl ⟨⟨begins, ends, named⟩, rfl⟩
    · exact Or.inr ⟨p, List.prefix_rfl, rfl, begins.trans (List.prefix_append _ _)⟩

/-- Whatever stands on a line, its pattern is normal. -/
theorem normal_pattern (rule : Text) : Normal (pattern rule) := by
  have begins := prefix_anywhere (unanchored rule)
  rw [pattern]
  rcases withContents_cases begins with ⟨normal, same⟩ | ⟨front, -, contents, begins⟩
  · exact same.symm ▸ normal
  · refine ⟨begins, ?_, Or.inl ⟨front, contents.symm⟩⟩
    rw [contents, List.getLast?_append_of_ne_nil _ (by decide)]
    decide

/-- A normal pattern is left alone. -/
theorem Normal.pattern_eq (normal : Normal p) : pattern p = p := by
  obtain ⟨rest, whole⟩ := normal.anywhere
  have bound : unanchored p = p := by
    rw [← whole]
    rfl
  have depth : Gitignore.anywhere p = p :=
    if_pos (List.isPrefixOf_iff_prefix.2 normal.anywhere)
  rw [pattern, bound, depth, withContents, if_neg normal.ends, if_pos]
  simpa [List.isSuffixOf_iff_suffix] using normal.named

/-! ## The ends of a pattern, and its line -/

theorem newline_not_mem_pattern (free : '\n' ∉ rule) : '\n' ∉ pattern rule := by
  have bare : '\n' ∉ unanchored rule := fun held => free ((unanchored_suffix rule).subset held)
  have deep : '\n' ∉ Gitignore.anywhere (unanchored rule) := by
    rcases anywhere_eq (unanchored rule) with same | longer
    · rwa [same]
    · rw [longer, List.mem_append, not_or]
      exact ⟨by decide, bare⟩
  rw [pattern]
  rcases withContents_cases (prefix_anywhere (unanchored rule)) with
    ⟨-, same⟩ | ⟨front, part, contents, -⟩
  · rwa [same]
  · rw [contents, List.mem_append, not_or]
    exact ⟨fun held => deep (part.subset held), by decide⟩

/-- A pattern at any depth ends as its rule does, unless it ends in a slash. -/
theorem getLast?_anywhere (ends : (Gitignore.anywhere (unanchored rule)).getLast? ≠ some '/') :
    (Gitignore.anywhere (unanchored rule)).getLast? = rule.getLast? := by
  obtain ⟨front, whole⟩ := unanchored_suffix rule
  have nonempty : unanchored rule ≠ [] := by
    intro empty
    rw [empty] at ends
    exact ends rfl
  have last : (unanchored rule).getLast? = rule.getLast? := by
    nth_rewrite 2 [← whole]
    exact (List.getLast?_append_of_ne_nil _ nonempty).symm
  rcases anywhere_eq (unanchored rule) with same | longer
  · rw [same, last]
  · rw [longer, List.getLast?_append_of_ne_nil _ nonempty, last]

theorem tight_pattern (tight : Tight rule) : Tight (pattern rule) where
  head := by
    intro c first
    obtain ⟨rest, whole⟩ := (normal_pattern rule).anywhere
    rw [← whole] at first
    cases first
    decide
  last := by
    intro c last
    rw [pattern] at last
    rcases withContents_cases (prefix_anywhere (unanchored rule)) with
      ⟨normal, same⟩ | ⟨front, -, contents, -⟩
    · rw [same, getLast?_anywhere normal.ends] at last
      exact tight.last c last
    · rw [contents, List.getLast?_append_of_ne_nil _ (by decide)] at last
      cases last
      decide

/-! ## Reading patterns as lines -/

/-- A normal pattern that can stand on a line. -/
structure Settled (p : Text) : Prop extends Normal p where
  tight : Tight p
  line : '\n' ∉ p

theorem settled_pattern (tight : Tight rule) (free : '\n' ∉ rule) : Settled (pattern rule) where
  toNormal := normal_pattern rule
  tight := tight_pattern tight
  line := newline_not_mem_pattern free

theorem settled_gitDirectory : Settled gitDirectory :=
  @settled_pattern gitDirectory (tight_of_trim (by decide)) (by decide)

theorem settled_of_mem_patterns {t : Text} (inside : p ∈ patterns t) : Settled p := by
  rw [patterns, List.mem_append, List.mem_map] at inside
  rcases inside with ⟨rule, listed, rfl⟩ | last
  · obtain ⟨line, written, rfl⟩ := List.mem_map.1 (List.mem_of_mem_filter listed)
    exact settled_pattern (tight_trim line) fun feed =>
      newline_not_mem_of_mem_lines written ((trim_isInfix line).subset feed)
  · exact List.mem_singleton.1 last ▸ settled_gitDirectory

theorem Settled.isRule (settled : Settled p) : isRule p = true := by
  obtain ⟨rest, whole⟩ := settled.anywhere
  rw [← whole]
  rfl

/-- Settled patterns on lines are converted to themselves. -/
theorem patterns_intercalate {ps : List Text} (nonempty : ps ≠ [])
    (settled : ∀ p ∈ ps, Settled p) : patterns (['\n'].intercalate ps) = ps ++ [gitDirectory] := by
  have lines : Text.lines (['\n'].intercalate ps) = ps :=
    List.splitOn_intercalate '\n' (fun p inside => (settled p inside).line) nonempty
  have trimmed : ps.map Text.trim = ps :=
    (List.map_congr_left fun p inside => trim_of_tight (settled p inside).tight).trans
      (List.map_id' ps)
  have kept : ps.filter isRule = ps :=
    List.filter_eq_self.2 fun p inside => (settled p inside).isRule
  have same : ps.map pattern = ps :=
    (List.map_congr_left fun p inside => (settled p inside).pattern_eq).trans (List.map_id' ps)
  rw [patterns, lines, trimmed, kept, same]

/-- The patterns are those of the lines that are kept, one each, and the last one. -/
theorem patterns_eq (t : Text) :
    patterns t = ((t.lines.filter (Kept ·)).map fun line => pattern (Text.trim line)) ++
      [gitDirectory] := by
  have kept : ∀ line, isRule (Text.trim line) = decide (Kept line) := fun line => by
    rw [Bool.eq_iff_iff, isRule_iff, decide_eq_true_iff]
    rfl
  rw [patterns, List.filter_map, List.map_map]
  simp only [Function.comp_def, kept]

/-- **A `.gitignore` is converted to normal patterns, once and for all.**  Each line that is kept
gives one pattern, in the order of the lines, and `**/.git/**` stands behind them; every pattern
begins with `**/`, does not end in a slash, and ends in `/**` or holds a dot; and the patterns,
joined by line feeds, are converted to the same patterns and `**/.git/**` once more. -/
theorem patterns_normal (t : Text) :
    patterns t = ((t.lines.filter (Kept ·)).map fun line => pattern (Text.trim line)) ++
      [gitDirectory] ∧
    (∀ p ∈ patterns t, Normal p) ∧
    patterns (['\n'].intercalate (patterns t)) = patterns t ++ [gitDirectory] := by
  refine ⟨patterns_eq t, fun p inside => (settled_of_mem_patterns inside).toNormal, ?_⟩
  exact patterns_intercalate (by simp [patterns]) fun p => settled_of_mem_patterns

-- The comment and the exception are dropped; a name without a dot is taken for a directory.
example : patterns "# build\n!keep\n/target\n*.log\n".toList =
    ["**/target/**".toList, "**/*.log".toList, "**/.git/**".toList] := by decide +kernel

end Gitignore

end PromptDoc
