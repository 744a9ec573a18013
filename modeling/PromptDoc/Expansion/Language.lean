/-
# PromptDoc.Expansion.Language — the language of a file, by its name

Only the last component of a path counts. Some names have a language of their
own; otherwise the extension decides, in lower case: first the overrides, of
which a later one wins, then the built-in table. A name that starts with its
only dot has no extension. The empty text stands for an unknown language.
-/
import PromptDoc.Text.Lowercase

namespace PromptDoc.Language

set_option autoImplicit false

/-- The part of a path after its last slash or backslash. -/
def fileName (path : Text) : Text :=
  (path.reverse.takeWhile fun c => c ≠ '/' && c ≠ '\x5c').reverse

/-- A name cut at its last dot: the stem and the extension. -/
def splitExtension? (name : Text) : Option (Text × Text) :=
  match name.reverse.dropWhile (· ≠ '.') with
  | [] => none
  | _ :: stem => some (stem.reverse, (name.reverse.takeWhile (· ≠ '.')).reverse)

/-- Names with a language of their own. -/
def names : List (String × String) := [
  ("Makefile", "makefile"), ("makefile", "makefile"), ("GNUmakefile", "makefile"),
  ("Dockerfile", "dockerfile"), ("CMakeLists.txt", "cmake"), (".bashrc", "shellscript"),
  (".bash_profile", "shellscript"), (".zshrc", "shellscript"), (".profile", "shellscript"),
  (".gitignore", "ignore"), (".dockerignore", "ignore")]

def extensions : List (String × String) := [
  ("rs", "rust"), ("py", "python"), ("pyi", "python"), ("js", "javascript"),
  ("mjs", "javascript"), ("cjs", "javascript"), ("jsx", "javascriptreact"),
  ("ts", "typescript"), ("mts", "typescript"), ("cts", "typescript"),
  ("tsx", "typescriptreact"), ("go", "go"), ("java", "java"), ("kt", "kotlin"),
  ("kts", "kotlin"), ("c", "c"), ("h", "c"), ("cc", "cpp"), ("cpp", "cpp"), ("cxx", "cpp"),
  ("hpp", "cpp"), ("hh", "cpp"), ("hxx", "cpp"), ("cs", "csharp"), ("swift", "swift"),
  ("rb", "ruby"), ("php", "php"), ("lua", "lua"), ("sh", "shellscript"),
  ("bash", "shellscript"), ("zsh", "shellscript"), ("ps1", "powershell"), ("sql", "sql"),
  ("html", "html"), ("htm", "html"), ("css", "css"), ("scss", "scss"), ("less", "less"),
  ("json", "json"), ("jsonc", "jsonc"), ("yaml", "yaml"), ("yml", "yaml"), ("toml", "toml"),
  ("xml", "xml"), ("md", "markdown"), ("markdown", "markdown"), ("vue", "vue"),
  ("svelte", "svelte"), ("dart", "dart"), ("scala", "scala"), ("hs", "haskell"),
  ("ex", "elixir"), ("exs", "elixir"), ("erl", "erlang"), ("clj", "clojure"), ("r", "r"),
  ("pl", "perl"), ("txt", "plaintext"), ("pbmd", "pbmd")]

def lookup? (table : List (String × String)) (key : Text) : Option Text :=
  (table.find? fun (name, _) => name.toList = key).map fun (_, language) => language.toList

/-- The last override of an extension, compared in lower case. -/
def override? (overrides : List (Text × Text)) (extension : Text) : Option Text :=
  (overrides.reverse.find? fun (key, _) => Text.lowercase key = extension).map (·.2)

def detect (overrides : List (Text × Text)) (path : Text) : Text :=
  let name := fileName path
  match lookup? names name with
  | some language => language
  | none =>
    match splitExtension? name with
    | none => []
    | some ([], _) => []
    | some (_, extension) =>
      let extension := Text.lowercase extension
      ((override? overrides extension).or (lookup? extensions extension)).getD []

end PromptDoc.Language
