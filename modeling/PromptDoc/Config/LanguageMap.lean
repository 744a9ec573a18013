/-
# PromptDoc.Config.LanguageMap — languages by extension, in key order

A map from extensions to languages that keeps its keys in increasing order, each
once. Setting a key again replaces its language.
-/
import PromptDoc.Text.Basic

namespace PromptDoc

set_option autoImplicit false

/-- Languages by extension, the keys in increasing order. -/
structure LanguageMap where
  entries : List (Text × Text)
  sorted : entries.Pairwise fun a b => a.1 < b.1

namespace LanguageMap

/-- Puts an entry where its key belongs. -/
def insertEntry (key language : Text) : List (Text × Text) → List (Text × Text)
  | [] => [(key, language)]
  | entry :: entries =>
    if key < entry.1 then (key, language) :: entry :: entries
    else if key = entry.1 then (key, language) :: entries
    else entry :: insertEntry key language entries

theorem key_of_mem_insertEntry {key language : Text} {entries : List (Text × Text)}
    {e : Text × Text} (h : e ∈ insertEntry key language entries) : e.1 = key ∨ e ∈ entries := by
  induction entries with
  | nil =>
    simp only [insertEntry, List.mem_singleton] at h
    simp [h]
  | cons entry entries ih =>
    unfold insertEntry at h
    split at h
    · rcases List.mem_cons.1 h with rfl | h
      · exact .inl rfl
      · exact .inr h
    · split at h
      · rcases List.mem_cons.1 h with rfl | h
        · exact .inl rfl
        · exact .inr (List.mem_cons_of_mem _ h)
      · rcases List.mem_cons.1 h with rfl | h
        · exact .inr List.mem_cons_self
        · exact (ih h).imp id (List.mem_cons_of_mem _)

theorem lt_of_not_lt_of_ne {a b : Text} (h : ¬ a < b) (ne : a ≠ b) : b < a := by
  apply Classical.byContradiction
  intro h'
  exact ne (List.le_antisymm (List.not_lt.1 h') (List.not_lt.1 h))

theorem sorted_insertEntry (key language : Text) {entries : List (Text × Text)}
    (h : entries.Pairwise fun a b => a.1 < b.1) :
    (insertEntry key language entries).Pairwise fun a b => a.1 < b.1 := by
  induction entries with
  | nil => simp [insertEntry]
  | cons entry entries ih =>
    obtain ⟨first, rest⟩ := List.pairwise_cons.1 h
    unfold insertEntry
    split
    · rename_i below
      refine List.pairwise_cons.2 ⟨?_, h⟩
      intro e mem
      rcases List.mem_cons.1 mem with rfl | mem
      · exact below
      · exact List.lt_trans below (first e mem)
    · split
      · rename_i same
        exact List.pairwise_cons.2 ⟨fun e mem => same ▸ first e mem, rest⟩
      · rename_i notBelow other
        refine List.pairwise_cons.2 ⟨?_, ih rest⟩
        intro e mem
        rcases key_of_mem_insertEntry mem with eq | mem
        · exact eq ▸ lt_of_not_lt_of_ne notBelow other
        · exact first e mem

def empty : LanguageMap := ⟨[], .nil⟩

def insert (m : LanguageMap) (key language : Text) : LanguageMap :=
  ⟨insertEntry key language m.entries, sorted_insertEntry key language m.sorted⟩

/-- The map with the given entries; of two with one key the later stands. -/
def ofList (entries : List (Text × Text)) : LanguageMap :=
  entries.foldl (fun m (key, language) => m.insert key language) empty

end LanguageMap

end PromptDoc
