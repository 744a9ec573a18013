/-
# PromptDoc.Proofs.Expansion.Language — what the language of a file is found by

`Speaks` says what the language of a file name is, one case a source: a language of the name's
own (`wellKnown`), an override of the extension, the built-in language of the extension
(`builtIn`), or none.  No case mentions how a path is cut or a list is searched, and both tables
stand here in full, by language.  `detect_eq_iff` is the agreement with the search.

Three things stand between the two.  The name is found from the end of a path, and so is the dot
in it; both are cuts at the last place of their kind (`fileName_eq_iff`,
`splitExtension?_append`).  The overrides have gone through lower case before they are compared in
lower case, which makes no difference, since lower case is settled.  And of several keys with one
lower case the last one wins, which is the greatest one, since keys are in order
(`override?_eq_some_iff`).
-/
import Mathlib.Data.List.Nodup
import Mathlib.Data.List.Infix
import Mathlib.Data.List.TakeWhile
import PromptDoc.Expansion.Standard
import PromptDoc.Proofs.Text.Casing

namespace PromptDoc

set_option autoImplicit false

open Text

namespace Language

/-! ## Tables -/

/-- The names that have a language of their own, by language. -/
def wellKnown : List (String × List String) := [
  ("makefile", ["Makefile", "makefile", "GNUmakefile"]),
  ("dockerfile", ["Dockerfile"]),
  ("cmake", ["CMakeLists.txt"]),
  ("shellscript", [".bashrc", ".bash_profile", ".zshrc", ".profile"]),
  ("ignore", [".gitignore", ".dockerignore"])]

/-- The extensions that have a language without any config, by language. -/
def builtIn : List (String × List String) := [
  ("rust", ["rs"]), ("python", ["py", "pyi"]),
  ("javascript", ["js", "mjs", "cjs"]), ("javascriptreact", ["jsx"]),
  ("typescript", ["ts", "mts", "cts"]), ("typescriptreact", ["tsx"]),
  ("go", ["go"]), ("java", ["java"]), ("kotlin", ["kt", "kts"]),
  ("c", ["c", "h"]), ("cpp", ["cc", "cpp", "cxx", "hpp", "hh", "hxx"]), ("csharp", ["cs"]),
  ("swift", ["swift"]), ("ruby", ["rb"]), ("php", ["php"]), ("lua", ["lua"]),
  ("shellscript", ["sh", "bash", "zsh"]), ("powershell", ["ps1"]), ("sql", ["sql"]),
  ("html", ["html", "htm"]), ("css", ["css"]), ("scss", ["scss"]), ("less", ["less"]),
  ("json", ["json"]), ("jsonc", ["jsonc"]), ("yaml", ["yaml", "yml"]), ("toml", ["toml"]),
  ("xml", ["xml"]), ("markdown", ["md", "markdown"]),
  ("vue", ["vue"]), ("svelte", ["svelte"]), ("dart", ["dart"]), ("scala", ["scala"]),
  ("haskell", ["hs"]), ("elixir", ["ex", "exs"]), ("erlang", ["erl"]), ("clojure", ["clj"]),
  ("r", ["r"]), ("perl", ["pl"]), ("plaintext", ["txt"]), ("pbmd", ["pbmd"])]

/-- A language is given to a key by the group that the key is in. -/
def Gives (groups : List (String × List String)) (key language : Text) : Prop :=
  ∃ group ∈ groups, (∃ word ∈ group.2, word.toList = key) ∧ group.1.toList = language

instance (groups : List (String × List String)) (key language : Text) :
    Decidable (Gives groups key language) :=
  inferInstanceAs (Decidable (∃ group ∈ groups, (∃ word ∈ group.2, word.toList = key) ∧
    group.1.toList = language))

/-- A table follows groups: it has an entry for each of their keys, and each key once. -/
structure Follows (table : List (String × String)) (groups : List (String × List String)) :
    Prop where
  entries : table = groups.flatMap fun group => group.2.map (·, group.1)
  once : (table.map fun entry => entry.1.toList).Nodup

theorem names_follows : Follows names wellKnown := ⟨rfl, by decide +kernel⟩

theorem extensions_follows : Follows extensions builtIn := ⟨rfl, by decide +kernel⟩

namespace Follows

variable {table : List (String × String)} {groups : List (String × List String)}
  {key language : Text}

theorem gives_iff (follows : Follows table groups) :
    Gives groups key language ↔
      ∃ entry ∈ table, entry.1.toList = key ∧ entry.2.toList = language := by
  rw [follows.entries]
  constructor
  · rintro ⟨group, grouped, ⟨word, inside, same⟩, rfl⟩
    exact ⟨(word, group.1),
      List.mem_flatMap.2 ⟨group, grouped, List.mem_map_of_mem inside⟩, same, rfl⟩
  · rintro ⟨entry, listed, same, rfl⟩
    obtain ⟨group, grouped, held⟩ := List.mem_flatMap.1 listed
    obtain ⟨word, inside, rfl⟩ := List.mem_map.1 held
    exact ⟨group, grouped, ⟨word, inside, same⟩, rfl⟩

theorem lookup?_eq_none_iff (follows : Follows table groups) :
    lookup? table key = none ↔ ∀ language, ¬ Gives groups key language := by
  simp only [lookup?, Option.map_eq_none_iff, List.find?_eq_none, decide_eq_true_eq,
    follows.gives_iff]
  constructor
  · rintro none_ language ⟨entry, listed, same, -⟩
    exact none_ entry listed same
  · intro none_ entry listed same
    exact none_ _ ⟨entry, listed, same, rfl⟩

/-- A table that has each key once says one thing of a key. -/
theorem lookup?_eq_some_iff (follows : Follows table groups) :
    lookup? table key = some language ↔ Gives groups key language := by
  constructor
  · intro found
    simp only [lookup?, Option.map_eq_some_iff] at found
    obtain ⟨entry, here, rfl⟩ := found
    exact follows.gives_iff.2
      ⟨entry, List.mem_of_find?_eq_some here, by simpa using List.find?_some here, rfl⟩
  · intro gives
    obtain ⟨entry, listed, rfl, rfl⟩ := follows.gives_iff.1 gives
    cases found : lookup? table entry.1.toList with
    | none => exact absurd gives (follows.lookup?_eq_none_iff.1 found _)
    | some other =>
        simp only [lookup?, Option.map_eq_some_iff] at found
        obtain ⟨entry', here, rfl⟩ := found
        have same : entry'.1.toList = entry.1.toList := by simpa using List.find?_some here
        rw [List.inj_on_of_nodup_map follows.once (List.mem_of_find?_eq_some here) listed same]

end Follows

/-! ## Names and extensions -/

/-- What stands behind the last slash or backslash of a path. -/
structure LastComponent (path name : Text) : Prop where
  behind : ∃ directory, path = directory ++ name ∧
    ∀ c, directory.getLast? = some c → c = '/' ∨ c = '\x5c'
  solid : '/' ∉ name ∧ '\x5c' ∉ name

theorem fileName_eq_iff {path name : Text} : fileName path = name ↔ LastComponent path name := by
  constructor
  · rintro rfl
    have solid : ∀ c ∈ fileName path, c ≠ '/' ∧ c ≠ '\x5c' := fun c inside => by
      simpa using List.mem_takeWhile_imp (List.mem_reverse.1 inside)
    refine ⟨⟨(path.reverse.dropWhile fun c => c ≠ '/' && c ≠ '\x5c').reverse, ?_, fun c last => ?_⟩,
      fun held => (solid _ held).1 rfl, fun held => (solid _ held).2 rfl⟩
    · rw [fileName, ← List.reverse_append, List.takeWhile_append_dropWhile, List.reverse_reverse]
    · have separator := List.head?_dropWhile_not (fun c => c ≠ '/' && c ≠ '\x5c') path.reverse
      rw [List.getLast?_reverse] at last
      rw [last] at separator
      simpa [or_iff_not_imp_left] using separator
  · rintro ⟨⟨directory, rfl, separated⟩, slash, backslash⟩
    have solid : ∀ c ∈ name.reverse, (c ≠ '/' && c ≠ '\x5c') = true := by
      intro c inside
      have held := List.mem_reverse.1 inside
      simpa using ⟨ne_of_mem_of_not_mem held slash, ne_of_mem_of_not_mem held backslash⟩
    have stops : directory.reverse.takeWhile (fun c => c ≠ '/' && c ≠ '\x5c') = [] := by
      cases back : directory.reverse with
      | nil => rfl
      | cons c cs =>
          have last : directory.getLast? = some c := by
            rw [← List.head?_reverse, back, List.head?_cons]
          exact List.takeWhile_cons_of_neg (by rcases separated c last with rfl | rfl <;> simp)
    rw [fileName, List.reverse_append, List.takeWhile_append_of_pos solid, stops, List.append_nil,
      List.reverse_reverse]

/-- The extension stands behind the last dot of the name, which something else stands before. -/
structure Extended (name extension : Text) : Prop where
  stem : ∃ stem, stem ≠ [] ∧ name = stem ++ '.' :: extension
  last : '.' ∉ extension

/-- A name without an extension has no dot, or only the one that it begins with. -/
def Bare (name : Text) : Prop := '.' ∉ name ∨ ∃ rest, name = '.' :: rest ∧ '.' ∉ rest

theorem splitExtension?_eq_none {name : Text} (dotless : '.' ∉ name) :
    splitExtension? name = none := by
  have all : ∀ c ∈ name.reverse, decide (c ≠ '.') = true := fun c inside =>
    decide_eq_true (ne_of_mem_of_not_mem (List.mem_reverse.1 inside) dotless)
  rw [splitExtension?, List.dropWhile_eq_nil_iff.2 all]

theorem splitExtension?_append {stem extension : Text} (last : '.' ∉ extension) :
    splitExtension? (stem ++ '.' :: extension) = some (stem, extension) := by
  have all : ∀ c ∈ extension.reverse, decide (c ≠ '.') = true := fun c inside =>
    decide_eq_true (ne_of_mem_of_not_mem (List.mem_reverse.1 inside) last)
  have reversed : (stem ++ '.' :: extension).reverse =
      extension.reverse ++ '.' :: stem.reverse := by simp
  rw [splitExtension?, reversed, List.dropWhile_append_of_pos all, List.takeWhile_append_of_pos all,
    List.dropWhile_cons_of_neg (by simp), List.takeWhile_cons_of_neg (by simp)]
  simp

/-! ## Overrides -/

/-- The languages have the language for a key with that lower case, and for no greater one with the
same lower case. -/
def Overrides (languages : LanguageMap) (lower language : Text) : Prop :=
  ∃ key, (key, language) ∈ languages.entries ∧ lowercase key = lower ∧
    ∀ entry ∈ languages.entries, lowercase entry.1 = lower → ¬ key < entry.1

theorem override?_normalizedLanguages (c : Config) (lower : Text) :
    override? c.normalizedLanguages lower =
      (c.languages.entries.reverse.find? fun entry => lowercase entry.1 = lower).map (·.2) := by
  rw [override?, Config.normalizedLanguages, ← List.map_reverse, List.find?_map, Option.map_map]
  simp [Function.comp_def, lowercase_lowercase]

theorem override?_eq_none_iff {c : Config} {lower : Text} :
    override? c.normalizedLanguages lower = none ↔
      ∀ entry ∈ c.languages.entries, lowercase entry.1 ≠ lower := by
  rw [override?_normalizedLanguages, Option.map_eq_none_iff, List.find?_eq_none]
  simp

/-- The keys are sorted, so the last of several is the greatest one. -/
theorem overrides_of_override? {c : Config} {lower language : Text}
    (found : override? c.normalizedLanguages lower = some language) :
    Overrides c.languages lower language := by
  rw [override?_normalizedLanguages, Option.map_eq_some_iff] at found
  obtain ⟨last, found, rfl⟩ := found
  obtain ⟨same, front, back, whole, unlike⟩ := List.find?_eq_some_iff_append.1 found
  have sorted := List.pairwise_reverse.2 c.languages.sorted
  rw [whole, List.pairwise_append, List.pairwise_cons] at sorted
  refine ⟨last.1, List.mem_reverse.1 (whole ▸ by simp), by simpa using same, ?_⟩
  -- the list is searched from its end, so the greater keys are in front, which has no such key
  intro entry listed alike above
  have inside : entry ∈ front ++ last :: back := whole ▸ List.mem_reverse.2 listed
  rcases List.mem_append.1 inside with before | inside
  · exact absurd alike (by simpa using unlike entry before)
  · rcases List.mem_cons.1 inside with rfl | later
    · exact List.lt_irrefl _ above
    · exact List.lt_asymm above (sorted.2.1.1 entry later)

theorem override?_eq_some_iff {c : Config} {lower language : Text} :
    override? c.normalizedLanguages lower = some language ↔
      Overrides c.languages lower language := by
  constructor
  · exact overrides_of_override?
  · rintro ⟨key, listed, same, greatest⟩
    cases found : override? c.normalizedLanguages lower with
    | none => exact absurd same (override?_eq_none_iff.1 found _ listed)
    | some other =>
        obtain ⟨key', listed', same', greatest'⟩ := overrides_of_override? found
        have keys : key = key' := by
          by_contra differ
          exact greatest' _ listed same
            (LanguageMap.lt_of_not_lt_of_ne (greatest _ listed' same') differ)
        have once : (c.languages.entries.map Prod.fst).Nodup :=
          List.pairwise_map.2 (c.languages.sorted.imp fun {a b} (below : a.1 < b.1) same =>
            List.lt_irrefl b.1 (same ▸ below))
        have entries := List.inj_on_of_nodup_map once listed listed' keys
        rw [(Prod.mk.inj entries).2]

/-! ## The language of a name -/

/-- The language of a file, by its name: that of the name itself, if it has one; else that of its
extension in lower case, as overridden or as built in; else none, which is the empty text. -/
inductive Speaks (languages : LanguageMap) (name : Text) : Text → Prop
  | wellKnown {language : Text} (known : Gives wellKnown name language) :
      Speaks languages name language
  | bare (unnamed : ∀ language, ¬ Gives wellKnown name language) (bare : Bare name) :
      Speaks languages name []
  | overridden {extension language : Text} (unnamed : ∀ language, ¬ Gives wellKnown name language)
      (extended : Extended name extension)
      (overrides : Overrides languages (lowercase extension) language) :
      Speaks languages name language
  | builtIn {extension language : Text} (unnamed : ∀ language, ¬ Gives wellKnown name language)
      (extended : Extended name extension)
      (free : ∀ entry ∈ languages.entries, lowercase entry.1 ≠ lowercase extension)
      (listed : Gives builtIn (lowercase extension) language) :
      Speaks languages name language
  | unknown {extension : Text} (unnamed : ∀ language, ¬ Gives wellKnown name language)
      (extended : Extended name extension)
      (free : ∀ entry ∈ languages.entries, lowercase entry.1 ≠ lowercase extension)
      (unlisted : ∀ language, ¬ Gives builtIn (lowercase extension) language) :
      Speaks languages name []

theorem bare_or_extended (name : Text) : Bare name ∨ ∃ extension, Extended name extension := by
  by_cases dotted : '.' ∈ name
  · obtain ⟨back, front, whole, last⟩ := List.eq_append_cons_of_mem (List.mem_reverse.2 dotted)
    have split : name = front.reverse ++ '.' :: back.reverse := by
      rw [← List.reverse_reverse name, whole]
      simp
    have last' : '.' ∉ back.reverse := fun held => last (List.mem_reverse.1 held)
    by_cases first : front = []
    · exact Or.inl (Or.inr ⟨back.reverse, by simpa [first] using split, last'⟩)
    · exact Or.inr ⟨back.reverse, ⟨front.reverse, by simpa using first, split⟩, last'⟩
  · exact Or.inl (Or.inl dotted)

section Detect

variable {overrides : List (Text × Text)} {path name : Text}

theorem detect_of_wellKnown {language : Text} (named : fileName path = name)
    (known : Gives wellKnown name language) : detect overrides path = language := by
  have found := names_follows.lookup?_eq_some_iff.2 known
  simp only [detect, named, found]

theorem detect_of_bare (named : fileName path = name)
    (unnamed : ∀ language, ¬ Gives wellKnown name language) (bare : Bare name) :
    detect overrides path = [] := by
  have missing := names_follows.lookup?_eq_none_iff.2 unnamed
  rcases bare with dotless | ⟨rest, rfl, last⟩
  · simp only [detect, named, missing, splitExtension?_eq_none dotless]
  · have split : splitExtension? ('.' :: rest) = some ([], rest) :=
      @splitExtension?_append [] rest last
    simp only [detect, named, missing, split]

theorem detect_of_extended {extension : Text} (named : fileName path = name)
    (unnamed : ∀ language, ¬ Gives wellKnown name language) (extended : Extended name extension) :
    detect overrides path = ((override? overrides (lowercase extension)).or
      (lookup? extensions (lowercase extension))).getD [] := by
  have missing := names_follows.lookup?_eq_none_iff.2 unnamed
  obtain ⟨⟨stem, nonempty, rfl⟩, last⟩ := extended
  cases stem with
  | nil => exact absurd rfl nonempty
  | cons c cs => simp only [detect, named, missing, splitExtension?_append last]

end Detect

variable {c : Config} {path name : Text}

theorem speaks_detect (named : fileName path = name) :
    Speaks c.languages name (detect c.normalizedLanguages path) := by
  by_cases known : ∃ language, Gives wellKnown name language
  · obtain ⟨language, known⟩ := known
    rw [detect_of_wellKnown named known]
    exact .wellKnown known
  · have unnamed : ∀ language, ¬ Gives wellKnown name language := not_exists.1 known
    rcases bare_or_extended name with bare | ⟨extension, extended⟩
    · rw [detect_of_bare named unnamed bare]
      exact .bare unnamed bare
    · rw [detect_of_extended named unnamed extended]
      cases overridden : override? c.normalizedLanguages (lowercase extension) with
      | some language => exact .overridden unnamed extended (override?_eq_some_iff.1 overridden)
      | none =>
          have free := override?_eq_none_iff.1 overridden
          cases listed : lookup? extensions (lowercase extension) with
          | some language =>
              have gives := extensions_follows.lookup?_eq_some_iff.1 listed
              exact .builtIn unnamed extended free gives
          | none =>
              have unlisted := extensions_follows.lookup?_eq_none_iff.1 listed
              exact .unknown unnamed extended free unlisted

theorem detect_eq_iff (named : fileName path = name) (language : Text) :
    detect c.normalizedLanguages path = language ↔ Speaks c.languages name language := by
  constructor
  · rintro rfl
    exact speaks_detect named
  · intro speaks
    cases speaks with
    | wellKnown known => exact detect_of_wellKnown named known
    | bare unnamed bare => exact detect_of_bare named unnamed bare
    | overridden unnamed extended overrides =>
        rw [detect_of_extended named unnamed extended, override?_eq_some_iff.2 overrides]
        rfl
    | builtIn unnamed extended free listed =>
        rw [detect_of_extended named unnamed extended, override?_eq_none_iff.2 free,
          extensions_follows.lookup?_eq_some_iff.2 listed]
        rfl
    | unknown unnamed extended free unlisted =>
        rw [detect_of_extended named unnamed extended, override?_eq_none_iff.2 free,
          extensions_follows.lookup?_eq_none_iff.2 unlisted]
        rfl

/-! ## The case of an extension -/

theorem LastComponent.append {directory name tail : Text} (component : LastComponent directory name)
    (slash : '/' ∉ tail) (backslash : '\x5c' ∉ tail) :
    LastComponent (directory ++ tail) (name ++ tail) := by
  obtain ⟨⟨front, rfl, separated⟩, freeSlash, freeBackslash⟩ := component
  refine ⟨⟨front, List.append_assoc _ _ _, separated⟩, ?_, ?_⟩
  · simp [freeSlash, slash]
  · simp [freeBackslash, backslash]

/-- Where the names have no language of their own, the case of the letters behind the last dot
makes no difference. -/
theorem detect_of_map_toLower {overrides : List (Text × Text)} {front a b : Text}
    (dot : '.' ∉ a) (slash : '/' ∉ a) (backslash : '\x5c' ∉ a)
    (same : a.map Char.toLower = b.map Char.toLower)
    (unnamedA : ∀ name, LastComponent (front ++ '.' :: a) name → ∀ l, ¬ Gives wellKnown name l)
    (unnamedB : ∀ name, LastComponent (front ++ '.' :: b) name → ∀ l, ¬ Gives wellKnown name l) :
    detect overrides (front ++ '.' :: a) = detect overrides (front ++ '.' :: b) := by
  have free : ∀ c : Char, c.isAlpha = false → c ∉ a → c ∉ b := by
    intro c other absent held
    rw [← mem_map_toLower_iff other, ← same, mem_map_toLower_iff other] at held
    exact absent held
  have dot' := free '.' (by decide) dot
  have directory := fileName_eq_iff.1 (rfl : fileName front = fileName front)
  have nameA : LastComponent (front ++ '.' :: a) (fileName front ++ '.' :: a) :=
    directory.append (by simpa using slash) (by simpa using backslash)
  have nameB : LastComponent (front ++ '.' :: b) (fileName front ++ '.' :: b) :=
    directory.append (by simpa using free '/' (by decide) slash)
      (by simpa using free '\x5c' (by decide) backslash)
  have namedA := fileName_eq_iff.2 nameA
  have namedB := fileName_eq_iff.2 nameB
  by_cases first : fileName front = []
  · rw [first, List.nil_append] at nameA nameB namedA namedB
    rw [detect_of_bare namedA (unnamedA _ nameA) (Or.inr ⟨a, rfl, dot⟩),
      detect_of_bare namedB (unnamedB _ nameB) (Or.inr ⟨b, rfl, dot'⟩)]
  · have lower : lowercase a = lowercase b := by
      rw [← lowercase_map_toLower a, same, lowercase_map_toLower]
    rw [detect_of_extended namedA (unnamedA _ nameA) ⟨⟨_, first, rfl⟩, dot⟩,
      detect_of_extended namedB (unnamedB _ nameB) ⟨⟨_, first, rfl⟩, dot'⟩, lower]

end Language

open PromptDoc.Language in
/-- **The language of a path is that of its last component**, which is all of the path that counts.
A name with a language of its own has that one, whatever the config says; a name that has no dot, or
begins with its only one, has none; any other one has that of its extension in lower case, from the
greatest key of the config with this lower case, else from the table of languages, else none.  So
the case of ASCII letters in an extension makes no difference, unless the name has a language of its
own. -/
theorem speaks_standard (d : Disk) (programs : Programs) (c : Config) (command : Command)
    (root : Option Text) :
    let s := Surroundings.standard d programs c command root
    (∀ path, (∃ name, LastComponent path name) ∧ ∀ name, LastComponent path name →
      ∀ language, s.language path = language ↔ Speaks c.languages name language) ∧
    ∀ front a b, '.' ∉ a → '/' ∉ a → '\x5c' ∉ a → a.map Char.toLower = b.map Char.toLower →
      (∀ name, LastComponent (front ++ '.' :: a) name ∨ LastComponent (front ++ '.' :: b) name →
        ∀ language, ¬ Gives wellKnown name language) →
      s.language (front ++ '.' :: a) = s.language (front ++ '.' :: b) := by
  intro s
  refine ⟨fun path => ⟨⟨_, fileName_eq_iff.1 rfl⟩, fun name component language => ?_⟩, ?_⟩
  · exact detect_eq_iff (fileName_eq_iff.2 component) language
  · intro front a b dot slash backslash same unnamed
    exact detect_of_map_toLower dot slash backslash same
      (fun name component => unnamed name (Or.inl component))
      fun name component => unnamed name (Or.inr component)

/-- A config with two keys for one extension, and one for the extension of a name that has a
language of its own. -/
def twiceKeyed : Config where
  languages := .ofList [("rs".toList, "rust".toList), ("RS".toList, "ruby".toList),
    ("txt".toList, "prose".toList)]

def twiceKeyedSurroundings : Surroundings :=
  .standard { tree := .directory [] } (fun _ => .error (.refused .notFound)) twiceKeyed
    { program := "git".toList, arguments := ["diff".toList] } none

open PromptDoc.Language in
theorem speaks_standard_twiceKeyed :
    (Speaks twiceKeyed.languages "Main.rS".toList "rust".toList ∧
      twiceKeyedSurroundings.language "a/b\x5cMain.rS".toList = "rust".toList ∧
      twiceKeyedSurroundings.language "a/b\x5cMain.Rs".toList =
        twiceKeyedSurroundings.language "a/b\x5cMain.rS".toList) ∧
    twiceKeyedSurroundings.language "src/CMakeLists.txt".toList = "cmake".toList ∧
    twiceKeyedSurroundings.language "src/lists.TXT".toList = "prose".toList ∧
    twiceKeyedSurroundings.language "tools/run.Py".toList = "python".toList ∧
    twiceKeyedSurroundings.language "tools/.rs".toList = [] ∧
    twiceKeyedSurroundings.language "tools/run.lock".toList = [] := by
  obtain ⟨byName, blind⟩ := speaks_standard { tree := .directory [] }
    (fun _ => .error (.refused .notFound)) twiceKeyed
    { program := "git".toList, arguments := ["diff".toList] } none
  have unnamed : ∀ name ∈ ["lists.TXT".toList, "run.Py".toList, ".rs".toList, "run.lock".toList,
      "Main.Rs".toList, "Main.rS".toList], ∀ language, ¬ Gives wellKnown name language :=
    fun name listed => names_follows.lookup?_eq_none_iff.1
      ((by decide +kernel : ∀ name ∈ ["lists.TXT".toList, "run.Py".toList, ".rs".toList,
        "run.lock".toList, "Main.Rs".toList, "Main.rS".toList], lookup? names name = none)
        name listed)
  have speaks : ∀ path name language, fileName path = name →
      Speaks twiceKeyed.languages name language →
      twiceKeyedSurroundings.language path = language := fun path name language named speaks =>
    ((byName path).2 name (fileName_eq_iff.1 named) language).2 speaks
  have rust : Speaks twiceKeyed.languages "Main.rS".toList "rust".toList :=
    .overridden (unnamed _ (by simp)) ⟨⟨"Main".toList, by decide, rfl⟩, by decide⟩
      ⟨"rs".toList, by decide +kernel, by decide +kernel, by decide +kernel⟩
  refine ⟨⟨rust, speaks _ _ _ (by decide) rust, ?_⟩, ?_, ?_, ?_, ?_, ?_⟩
  · refine blind "a/b\x5cMain".toList "Rs".toList "rS".toList (by decide) (by decide) (by decide)
      (by decide) fun name component => ?_
    rcases component with here | here
    · exact fileName_eq_iff.2 here ▸ unnamed "Main.Rs".toList (by simp)
    · exact fileName_eq_iff.2 here ▸ unnamed "Main.rS".toList (by simp)
  · exact speaks _ "CMakeLists.txt".toList _ (by decide) (.wellKnown (by decide +kernel))
  · exact speaks _ "lists.TXT".toList _ (by decide) (.overridden (unnamed _ (by simp))
      ⟨⟨"lists".toList, by decide, rfl⟩, by decide⟩
      ⟨"txt".toList, by decide +kernel, by decide +kernel, by decide +kernel⟩)
  · exact speaks _ "run.Py".toList _ (by decide) (.builtIn (unnamed _ (by simp))
      ⟨⟨"run".toList, by decide, rfl⟩, by decide⟩ (by decide +kernel) (by decide +kernel))
  · exact speaks _ ".rs".toList _ (by decide) (.bare (unnamed _ (by simp))
      (Or.inr ⟨"rs".toList, rfl, by decide⟩))
  · refine speaks _ "run.lock".toList _ (by decide) (.unknown (unnamed _ (by simp))
      ⟨⟨"run".toList, by decide, rfl⟩, by decide⟩ (by decide +kernel) ?_)
    exact extensions_follows.lookup?_eq_none_iff.1 (by decide +kernel)

end PromptDoc
