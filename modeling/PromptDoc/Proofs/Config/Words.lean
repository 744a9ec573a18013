/-
# PromptDoc.Proofs.Config.Words — how a command line reads

`Words.split?` goes over a command line one character at a time and remembers where
it is.  Here the same thing is said without a state.  A word is made of parts, each of
which stands for some characters (`Part`): a plain character, a character behind a
backslash, two lines joined by a backslash, a text in single quotes, or one in double
quotes (`Quoted`).  It goes on to the next separator (`Tail`), and a command line
consists of words, separators, joined lines and comments (`Reads`).

Each part has one lemma that takes `splitFrom` over all of it, so whatever reads is
split that way (`splitFrom_of_reads`).  For the converse every mode has its own
meaning (`ReadsFrom`), which goes by the recursion of `splitFrom`.
-/
import Mathlib.Tactic.SplitIfs
import PromptDoc.Config.Words

namespace PromptDoc.Words

set_option autoImplicit false

/-! ## Words without a state -/

/-- Characters that stand for themselves in a word. -/
def Plain (c : Char) : Prop :=
  c ≠ '\x27' ∧ c ≠ '\x22' ∧ c ≠ '\x5c' ∧ isSeparator c = false

/-- A text in double quotes, and what it stands for. -/
inductive Quoted : Text → Text → Prop
  | nil : Quoted [] []
  | plain {c : Char} {s v : Text} (open_ : c ≠ '\x22') (bare : c ≠ '\x5c') (more : Quoted s v) :
      Quoted (c :: s) (c :: v)
  | joined {s v : Text} (more : Quoted s v) : Quoted ('\x5c' :: '\n' :: s) v
  | escaped {c : Char} {s v : Text} (escapes : isEscapable c = true) (more : Quoted s v) :
      Quoted ('\x5c' :: c :: s) (c :: v)
  /-- Before any other character a backslash is kept. -/
  | kept {c : Char} {s v : Text} (same : c ≠ '\n') (other : isEscapable c = false)
      (more : Quoted s v) : Quoted ('\x5c' :: c :: s) ('\x5c' :: c :: v)

/-- A part of a word, and what it stands for. -/
inductive Part : Text → Text → Prop
  | plain {c : Char} (plain : Plain c) : Part [c] [c]
  | escaped {c : Char} (same : c ≠ '\n') : Part ['\x5c', c] [c]
  | joined : Part ['\x5c', '\n'] []
  | single {s : Text} (open_ : '\x27' ∉ s) : Part ('\x27' :: (s ++ ['\x27'])) s
  | double {s v : Text} (quoted : Quoted s v) : Part ('\x22' :: (s ++ ['\x22'])) v

/-- A word can begin with a part, unless the part begins a comment or joins two lines. -/
def Begins (s : Text) : Prop := s.head? ≠ some '#' ∧ s ≠ ['\x5c', '\n']

/-- The rest of a word that has begun: what it stands for, and what stands after the word. -/
inductive Tail : Text → Text → Text → Prop
  | done {rest : Text} (ends : ∀ c ∈ rest.head?, isSeparator c = true) : Tail rest [] rest
  /-- A backslash with nothing after it stands for itself. -/
  | escape : Tail ['\x5c'] ['\x5c'] []
  | part {s v t w rest : Text} (first : Part s v) (more : Tail t w rest) :
      Tail (s ++ t) (v ++ w) rest

/-- A command line and its words. -/
inductive Reads : Text → List Text → Prop
  | nil : Reads [] []
  | separator {c : Char} {t : Text} {words : List Text} (separates : isSeparator c = true)
      (more : Reads t words) : Reads (c :: t) words
  | joined {t : Text} {words : List Text} (more : Reads t words) :
      Reads ('\x5c' :: '\n' :: t) words
  | comment {s rest : Text} {words : List Text} (line : '\n' ∉ s)
      (ends : ∀ c ∈ rest.head?, c = '\n') (more : Reads rest words) :
      Reads ('#' :: (s ++ rest)) words
  | escape : Reads ['\x5c'] [['\x5c']]
  | word {s v t w rest : Text} {words : List Text} (first : Part s v) (begins : Begins s)
      (tail : Tail t w rest) (more : Reads rest words) : Reads (s ++ t) ((v ++ w) :: words)

variable {c : Char} {s t v w rest : Text} {words : List Text}

/-! ## What reads is split that way -/

attribute [local simp] splitFrom

theorem not_quote_of_isSeparator (separates : isSeparator c = true) :
    c ≠ '\x27' ∧ c ≠ '\x22' ∧ c ≠ '\x5c' := by
  simp only [isSeparator, Bool.or_eq_true, beq_iff_eq] at separates
  rcases separates with (rfl | rfl) | rfl <;> decide

theorem splitFrom_single (open_ : '\x27' ∉ s) :
    splitFrom .single w (s ++ '\x27' :: t) = splitFrom .bare (w ++ s) t := by
  induction s generalizing w with
  | nil => simp
  | cons c s ih =>
      obtain ⟨other, open_⟩ := not_or.1 (mt List.mem_cons.2 open_)
      rw [List.cons_append, splitFrom, if_neg (Ne.symm other), ih open_, List.append_assoc]
      rfl

theorem splitFrom_double (quoted : Quoted s v) :
    splitFrom .double w (s ++ '\x22' :: t) = splitFrom .bare (w ++ v) t := by
  induction quoted generalizing w with
  | nil => simp
  | plain open_ bare _ ih => simp [open_, bare, ih]
  | joined _ ih => simp [ih]
  | @escaped c s v escapes _ ih =>
      have same : c ≠ '\n' := by rintro rfl; cases escapes
      simp [same, escapes, ih]
  | kept same other _ ih => simp [same, other, ih]

/-- In a word a part is gone over as a whole. -/
theorem splitFrom_part (first : Part s v) :
    splitFrom .bare w (s ++ t) = splitFrom .bare (w ++ v) t := by
  cases first with
  | plain plain =>
      obtain ⟨single, double, escape, separator⟩ := plain
      simp [single, double, escape, separator]
  | escaped same => simp [same]
  | joined => simp
  | single open_ => simpa using splitFrom_single open_
  | double quoted => simpa using splitFrom_double quoted

/-- And so is the part that a word begins with. -/
theorem splitFrom_first (first : Part s v) (begins : Begins s) :
    splitFrom .between [] (s ++ t) = splitFrom .bare v t := by
  cases first with
  | plain plain =>
      obtain ⟨single, double, escape, separator⟩ := plain
      have comment : _ ≠ '#' := fun same => begins.1 (congrArg some same)
      simp [single, double, escape, separator, comment]
  | escaped same => simp [same]
  | joined => exact absurd rfl begins.2
  | single open_ => simpa using splitFrom_single (w := []) open_
  | double quoted => simpa using splitFrom_double (w := []) quoted

/-- A word goes on to the next separator. -/
theorem splitFrom_tail (tail : Tail t v rest) :
    splitFrom .bare w t = (splitFrom .between [] rest).map ((w ++ v) :: ·) := by
  induction tail generalizing w with
  | @done rest ends =>
      cases rest with
      | nil => simp
      | cons c rest =>
          have separates := ends c rfl
          obtain ⟨single, double, escape⟩ := not_quote_of_isSeparator separates
          simp [single, double, escape, separates]
  | escape => simp
  | part first _ ih => rw [splitFrom_part first, ih, List.append_assoc]

theorem splitFrom_comment (line : '\n' ∉ s) (ends : ∀ c ∈ rest.head?, c = '\n') :
    splitFrom .comment [] (s ++ rest) = splitFrom .between [] rest := by
  induction s with
  | nil =>
      cases rest with
      | nil => rfl
      | cons c rest =>
          obtain rfl := ends c rfl
          rfl
  | cons c s ih =>
      obtain ⟨other, line⟩ := not_or.1 (mt List.mem_cons.2 line)
      rw [List.cons_append, splitFrom, if_neg (Ne.symm other), ih line]

theorem splitFrom_of_reads (reads : Reads t words) : splitFrom .between [] t = some words := by
  induction reads with
  | nil => rfl
  | separator separates _ ih =>
      obtain ⟨single, double, escape⟩ := not_quote_of_isSeparator separates
      simp [single, double, escape, separates, ih]
  | joined _ ih => simpa using ih
  | comment line ends _ ih =>
      rw [← ih, ← splitFrom_comment line ends]
      rfl
  | escape => rfl
  | word first begins tail _ ih =>
      rw [splitFrom_first first begins, splitFrom_tail tail, ih, Option.map_some]

/-! ## What is split reads that way -/

/-- The rest of a word that begins with `w`, and the words after it. -/
def Ends (w t : Text) (words : List Text) : Prop :=
  ∃ v rest later, Tail t v rest ∧ Reads rest later ∧ words = (w ++ v) :: later

theorem Ends.part (first : Part s v) (ends : Ends (w ++ v) t words) : Ends w (s ++ t) words := by
  obtain ⟨u, rest, later, tail, more, rfl⟩ := ends
  exact ⟨v ++ u, rest, later, .part first tail, more, by rw [List.append_assoc]⟩

theorem Ends.reads (first : Part s v) (begins : Begins s) (ends : Ends v t words) :
    Reads (s ++ t) words := by
  obtain ⟨u, rest, later, tail, more, rfl⟩ := ends
  exact .word first begins tail more

/-- How the rest of a command line reads, by where it begins.  Between two words nothing of a word
has been read. -/
def ReadsFrom : Mode → Text → Text → List Text → Prop
  | .between, w, t, words => w = [] → Reads t words
  | .comment, w, t, words => w = [] →
    ∃ s rest, '\n' ∉ s ∧ (∀ c ∈ rest.head?, c = '\n') ∧ t = s ++ rest ∧ Reads rest words
  | .leadingEscape, w, t, words => w = [] → Reads ('\x5c' :: t) words
  | .bare, w, t, words => Ends w t words
  | .bareEscape, w, t, words => Ends w ('\x5c' :: t) words
  | .single, w, t, words =>
    ∃ s rest, '\x27' ∉ s ∧ t = s ++ '\x27' :: rest ∧ Ends (w ++ s) rest words
  | .double, w, t, words =>
    ∃ s v rest, Quoted s v ∧ t = s ++ '\x22' :: rest ∧ Ends (w ++ v) rest words
  | .doubleEscape, w, t, words =>
    ∃ s v rest, Quoted ('\x5c' :: s) v ∧ t = s ++ '\x22' :: rest ∧ Ends (w ++ v) rest words

theorem Ends.done (ends : ∀ c ∈ t.head?, isSeparator c = true) (more : Reads t words) :
    Ends w t (w :: words) :=
  ⟨[], t, words, .done ends, more, by rw [List.append_nil]⟩

/-- In every mode a text reads as it is split. -/
def Sound (t : Text) : Prop :=
  ∀ {mode : Mode} {w : Text} {words : List Text},
    splitFrom mode w t = some words → ReadsFrom mode w t words

theorem sound_nil : Sound [] := by
  intro mode w words split
  cases mode with
  | single | double | doubleEscape => cases split
  | between => cases split; exact fun _ => .nil
  | comment => cases split; exact fun _ => ⟨[], [], List.not_mem_nil, by simp, rfl, .nil⟩
  | leadingEscape => cases split; rintro rfl; exact .escape
  | bare => cases split; exact .done (by simp) .nil
  | bareEscape => cases split; exact ⟨['\x5c'], [], [], .escape, .nil, rfl⟩

namespace Sound

variable (sound : Sound t)
include sound

theorem between (split : splitFrom .between [] (c :: t) = some words) : Reads (c :: t) words := by
  rw [splitFrom] at split
  split_ifs at split with single double escape separator comment
  · subst single
    obtain ⟨s, rest, open_, rfl, ends⟩ := sound split
    simpa using ends.reads (.single open_) ⟨by simp, by simp⟩
  · subst double
    obtain ⟨s, v, rest, quoted, rfl, ends⟩ := sound split
    simpa using ends.reads (.double quoted) ⟨by simp, by simp⟩
  · subst escape
    exact sound split rfl
  · exact .separator separator (sound split rfl)
  · subst comment
    obtain ⟨s, rest, line, ends, rfl, more⟩ := sound split rfl
    exact .comment line ends more
  · have plain : Plain c := ⟨single, double, escape, by simpa using separator⟩
    exact (sound split).reads (.plain plain) ⟨by simpa using comment, by simp⟩

theorem comment (split : splitFrom .comment [] (c :: t) = some words) :
    ReadsFrom .comment [] (c :: t) words := by
  intro _
  rw [splitFrom] at split
  split_ifs at split with line
  · subst line
    exact ⟨[], _, List.not_mem_nil, by simp, rfl, .separator rfl (sound split rfl)⟩
  · obtain ⟨s, rest, within, ends, rfl, more⟩ := sound split rfl
    exact ⟨c :: s, rest, by simp [Ne.symm line, within], ends, rfl, more⟩

theorem leadingEscape (split : splitFrom .leadingEscape [] (c :: t) = some words) :
    Reads ('\x5c' :: c :: t) words := by
  rw [splitFrom] at split
  split_ifs at split with line
  · subst line
    exact .joined (sound split rfl)
  · exact (sound split).reads (.escaped line) ⟨by simp, by simp [line]⟩

theorem bare (split : splitFrom .bare w (c :: t) = some words) : Ends w (c :: t) words := by
  rw [splitFrom] at split
  split_ifs at split with single double escape separator
  · subst single
    obtain ⟨s, rest, open_, rfl, ends⟩ := sound split
    simpa using ends.part (.single open_)
  · subst double
    obtain ⟨s, v, rest, quoted, rfl, ends⟩ := sound split
    simpa using ends.part (.double quoted)
  · subst escape
    exact sound split
  · obtain ⟨later, found, rfl⟩ := Option.map_eq_some_iff.1 split
    exact .done (by simpa using separator) (.separator separator (sound found rfl))
  · have plain : Plain c := ⟨single, double, escape, by simpa using separator⟩
    exact (sound split).part (.plain plain)

theorem bareEscape (split : splitFrom .bareEscape w (c :: t) = some words) :
    Ends w ('\x5c' :: c :: t) words := by
  rw [splitFrom] at split
  split_ifs at split with line
  · subst line
    have ends : Ends (w ++ []) t words := by rw [List.append_nil]; exact sound split
    exact ends.part .joined
  · exact (sound split).part (.escaped line)

theorem single (split : splitFrom .single w (c :: t) = some words) :
    ReadsFrom .single w (c :: t) words := by
  rw [splitFrom] at split
  split_ifs at split with closed
  · subst closed
    exact ⟨[], t, List.not_mem_nil, rfl, by rw [List.append_nil]; exact sound split⟩
  · obtain ⟨s, rest, open_, rfl, ends⟩ := sound split
    exact ⟨c :: s, rest, by simp [Ne.symm closed, open_], rfl, by simpa using ends⟩

theorem double (split : splitFrom .double w (c :: t) = some words) :
    ReadsFrom .double w (c :: t) words := by
  rw [splitFrom] at split
  split_ifs at split with closed escape
  · subst closed
    exact ⟨[], [], t, .nil, rfl, by rw [List.append_nil]; exact sound split⟩
  · subst escape
    obtain ⟨s, v, rest, quoted, rfl, ends⟩ := sound split
    exact ⟨'\x5c' :: s, v, rest, quoted, rfl, ends⟩
  · obtain ⟨s, v, rest, quoted, rfl, ends⟩ := sound split
    exact ⟨c :: s, c :: v, rest, .plain closed escape quoted, rfl, by simpa using ends⟩

theorem doubleEscape (split : splitFrom .doubleEscape w (c :: t) = some words) :
    ReadsFrom .doubleEscape w (c :: t) words := by
  rw [splitFrom] at split
  split_ifs at split with line escapes
  · subst line
    obtain ⟨s, v, rest, quoted, rfl, ends⟩ := sound split
    exact ⟨'\n' :: s, v, rest, .joined quoted, rfl, ends⟩
  · obtain ⟨s, v, rest, quoted, rfl, ends⟩ := sound split
    exact ⟨c :: s, c :: v, rest, .escaped escapes quoted, rfl, by simpa using ends⟩
  · have kept : isEscapable c = false := by simpa using escapes
    obtain ⟨s, v, rest, quoted, rfl, ends⟩ := sound split
    exact ⟨c :: s, '\x5c' :: c :: v, rest, .kept line kept quoted, rfl, by simpa using ends⟩

theorem cons : Sound (c :: t) := by
  intro mode w words split
  cases mode with
  | between => rintro rfl; exact sound.between split
  | comment => rintro rfl; exact sound.comment split rfl
  | leadingEscape => rintro rfl; exact sound.leadingEscape split
  | bare => exact sound.bare split
  | bareEscape => exact sound.bareEscape split
  | single => exact sound.single split
  | double => exact sound.double split
  | doubleEscape => exact sound.doubleEscape split

end Sound

theorem sound (t : Text) : Sound t := by
  induction t with
  | nil => exact sound_nil
  | cons c t ih => exact ih.cons

/-- A command line is split into the words that it reads as, and refused only if it reads as none. -/
theorem split?_eq_some_iff : split? t = some words ↔ Reads t words :=
  ⟨fun split => sound t split rfl, splitFrom_of_reads⟩

-- A word goes on behind a closing quote, and a quote in a comment is not open.
example : split? "git 'di'ff \x22a\x5c\x22 b\x22 # don't".toList =
    some ["git".toList, "diff".toList, "a\x22 b".toList] := by decide

end PromptDoc.Words
