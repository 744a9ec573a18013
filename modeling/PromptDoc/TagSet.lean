/-
# PromptDoc.TagSet — the spellings of the directive tags

A directive is written with a tag, and each kind of directive may have several
spellings. `Spellings` are three lists as configured; a `TagSet` is one whose
spellings are accepted: there is at least one, each is a tag name, and none is
listed twice. `TagSet.ofSpellings` accepts spellings or says what is wrong with
the first one that cannot stand (`Spellings.defect?`).
-/
import PromptDoc.Text.Basic

namespace PromptDoc

set_option autoImplicit false

/-- The spellings of each kind of directive, in order of preference. -/
structure Spellings where
  context : List Text
  diff : List Text
  note : List Text
deriving DecidableEq, Repr

/-- Why spellings cannot be accepted. -/
inductive TagDefect where
  /-- There is no spelling at all. -/
  | noSpelling
  /-- A spelling is not a tag name. -/
  | invalidName (tag : Text)
  /-- A spelling is listed twice. -/
  | repeated (tag : Text)
deriving DecidableEq, Repr

namespace TagDefect

def message : TagDefect → Text
  | .noSpelling => "at least one directive tag spelling must be configured".toList
  | .invalidName tag =>
    "invalid directive tag name '".toList ++ tag ++
      "': must start with a letter and contain only letters, digits, '-', '_', '.' or ':'".toList
  | .repeated tag => "tag '".toList ++ tag ++ "' is configured more than once".toList

end TagDefect

namespace Spellings

/-- Characters that a tag name may hold after its first letter. -/
def isNameChar (c : Char) : Bool :=
  c.isAlphanum || c == '-' || c == '_' || c == '.' || c == ':'

/-- Whether a text is a tag name: an ASCII letter, then name characters. -/
def isName : Text → Bool
  | [] => false
  | c :: cs => c.isAlpha && cs.all isNameChar

/-- Every spelling, in the order in which they are checked. -/
def all (s : Spellings) : List Text := s.context ++ s.diff ++ s.note

/-- The first spelling that is no name, or that stands among those before it. -/
def firstDefect (seen : List Text) : List Text → Option TagDefect
  | [] => none
  | tag :: tags =>
    if isName tag = false then some (.invalidName tag)
    else if tag ∈ seen then some (.repeated tag)
    else firstDefect (tag :: seen) tags

def defect? (s : Spellings) : Option TagDefect :=
  if s.all = [] then some .noSpelling else firstDefect [] s.all

/-- Spellings that can stand together: some, all of them names, none repeated. -/
structure Accepted (s : Spellings) : Prop where
  nonempty : s.all ≠ []
  names : ∀ tag ∈ s.all, isName tag = true
  nodup : s.all.Nodup

theorem firstDefect_eq_none {seen tags : List Text} (h : firstDefect seen tags = none) :
    (∀ tag ∈ tags, isName tag = true) ∧ (∀ tag ∈ tags, tag ∉ seen) ∧ tags.Nodup := by
  induction tags generalizing seen with
  | nil => simp
  | cons tag tags ih =>
    unfold firstDefect at h
    split at h
    · simp at h
    · split at h
      · simp at h
      · rename_i name fresh
        obtain ⟨names, apart, nodup⟩ := ih h
        refine ⟨?_, ?_, ?_⟩
        · intro t ht
          rcases List.mem_cons.1 ht with rfl | ht
          · simpa using name
          · exact names t ht
        · intro t ht
          rcases List.mem_cons.1 ht with rfl | ht
          · exact fresh
          · exact fun mem => apart t ht (List.mem_cons_of_mem _ mem)
        · exact List.nodup_cons.2 ⟨fun mem => apart tag mem List.mem_cons_self, nodup⟩

/-- Spellings without a defect can stand together. -/
theorem accepted_of_defect?_eq_none {s : Spellings} (h : s.defect? = none) : s.Accepted := by
  unfold defect? at h
  split at h
  · simp at h
  · rename_i nonempty
    obtain ⟨names, _, nodup⟩ := firstDefect_eq_none h
    exact ⟨nonempty, names, nodup⟩

end Spellings

/-- Accepted spellings: the tags that a document is read with. -/
structure TagSet extends Spellings where
  accepted : toSpellings.Accepted

namespace TagSet

/-- The tag set with the given spellings, or the first defect they have. -/
def ofSpellings (s : Spellings) : Except TagDefect TagSet :=
  match h : s.defect? with
  | some defect => .error defect
  | none => .ok ⟨s, Spellings.accepted_of_defect?_eq_none h⟩

/-- The spelling that a new context block is written with. -/
def primaryContext? (tags : TagSet) : Option Text := tags.context.head?

end TagSet

def Spellings.standard : Spellings where
  context := ["context".toList, "pb-context".toList]
  diff := ["diff".toList]
  note := ["pb-note".toList]

def TagSet.standard : TagSet :=
  ⟨.standard, Spellings.accepted_of_defect?_eq_none (by decide)⟩

end PromptDoc
