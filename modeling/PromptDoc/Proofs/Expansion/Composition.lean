/-
# PromptDoc.Proofs.Expansion.Composition — a prompt is made of its spans

Whatever the surroundings answer, a resolved segment neither begins nor ends with a
blank (`tight_resolve`): files and diffs end in a fence, placeholders in a bracket,
and the paths of a block come without blanks around them. The answers need not even
agree with one another (`Segment.MayResolve`). So no run of line feeds
crosses from one segment to the next, and since a span is read on its own as the
segment that it holds (`IsPiece.pieces_source`), expanding a document is expanding its spans
one by one and joining what they give (`expandText_spans`).
-/
import PromptDoc.Expansion.Expand
import PromptDoc.Proofs.Expansion.Collapse
import PromptDoc.Proofs.Segment.Partition

namespace PromptDoc

set_option autoImplicit false

open Text

namespace Format

/-! ## Written forms -/

theorem tight_fence : Tight fence := tight_of_trim (by decide)

theorem fence_ne_nil : fence ≠ [] := by decide

theorem tight_fileBlock {path : Text} (tight : Tight path) (nonempty : path ≠ [])
    (language content : Text) : Tight (fileBlock path language content) := by
  have shape : fileBlock path language content =
      path ++ (['\n'] ++ fence ++ language ++ ['\n'] ++ Text.trim content ++ ['\n']) ++ fence := by
    simp [fileBlock]
  rw [shape]
  exact tight.surround tight_fence nonempty fence_ne_nil _

theorem tight_readFailed (path : Text) : Tight (readFailed path) := by
  have shape : readFailed path = ['['] ++ ("Failed to read: ".toList ++ path) ++ [']'] := rfl
  rw [shape]
  exact Tight.surround (tight_of_trim (by decide)) (tight_of_trim (by decide)) (by decide)
    (by decide) _

theorem readFailed_ne_nil (path : Text) : readFailed path ≠ [] := List.cons_ne_nil _ _

theorem tight_diffBlock (output : Text) : Tight (diffBlock output) := by
  unfold diffBlock
  split
  · exact tight_of_trim (by decide)
  · have shape : fence ++ "diff\n".toList ++ Text.trim output ++ ['\n'] ++ fence =
        fence ++ ("diff\n".toList ++ Text.trim output ++ ['\n']) ++ fence := by simp
    rw [shape]
    exact tight_fence.surround tight_fence fence_ne_nil fence_ne_nil _

theorem tight_diffFailed : Tight diffFailed := tight_of_trim (by decide)

end Format

namespace Surroundings

variable (s : Surroundings)

/-! ## Resolved segments -/

/-- The block of a file is written under its path. -/
theorem exists_of_fileBlock {path block : Text} (h : s.fileBlock path = .ok block) :
    ∃ language content, block = Format.fileBlock path language content := by
  unfold fileBlock at h
  cases workspace : s.root with
  | none =>
      rw [workspace] at h
      cases h
  | some root =>
      rw [workspace] at h
      cases contents : s.read root path with
      | error error =>
          simp only [contents] at h
          cases h
      | ok bytes =>
          simp only [contents] at h
          exact ⟨_, _, (Except.ok.inj h).symm⟩

theorem tight_resolvePath {path : Text} (line : IsPathLine path) :
    Tight (s.resolvePath path).text ∧ (s.resolvePath path).text ≠ [] := by
  have tight : Tight path := tight_of_trim line.trimmed
  cases found : s.fileBlock path with
  | ok block =>
      obtain ⟨language, content, rfl⟩ := s.exists_of_fileBlock found
      simp only [resolvePath, found]
      exact ⟨Format.tight_fileBlock tight line.nonempty language content,
        by simp [Format.fileBlock]⟩
  | error error =>
      simp only [resolvePath, found]
      exact ⟨Format.tight_readFailed path, Format.readFailed_ne_nil path⟩

theorem tight_resolveDiff (branch : Option Text) : Tight (s.resolveDiff branch).text := by
  cases found : s.diffOutput branch with
  | ok output =>
      simp only [resolveDiff, found]
      exact Format.tight_diffBlock output
  | error error =>
      simp only [resolveDiff, found]
      exact Format.tight_diffFailed

end Surroundings

/-! ## Answers that need not agree -/

/-- A text that a segment may resolve to, where every path and every diff is answered by
surroundings of its own: a file may be there once and be gone when it is read again. -/
inductive Segment.MayResolve : Segment → Text → Prop
  | text (content : Text) : MayResolve (.text content) (Text.trim content)
  | note (content : Text) : MayResolve (.note content) (Text.trim content)
  | context (asked : List (Text × Surroundings)) :
      MayResolve (.context (asked.map fun (path, _) => path))
        ("\n\n".toList.intercalate (asked.map fun (path, s) => (s.resolvePath path).text))
  | diff (s : Surroundings) (branch : Option Text) :
      MayResolve (.diff branch) (s.resolveDiff branch).text

/-- Whatever was answered, what a piece of a document resolves to has no blank at its ends: the
files of a block are tight and not empty, and so is what they are joined to. -/
theorem Segment.MayResolve.tight {tags : TagSet} {p : Piece} {text : Text}
    (resolved : p.segment.MayResolve text) (piece : tags.IsPiece p) : Tight text := by
  generalize segment : p.segment = read at resolved
  cases resolved with
  | text content => exact tight_trim content
  | note content => exact tight_trim content
  | diff s branch => exact s.tight_resolveDiff branch
  | context asked =>
      have written : ∀ file ∈ asked.map fun (path, s) => (s.resolvePath path).text,
          Tight file ∧ file ≠ [] := by
        intro file inside
        obtain ⟨⟨path, s⟩, answered, rfl⟩ := List.mem_map.1 inside
        exact s.tight_resolvePath (piece.isPathLine segment (List.mem_map_of_mem answered))
      exact Tight.intercalate (fun file inside => (written file inside).1)
        fun file inside => (written file inside).2

namespace Surroundings

variable (s : Surroundings) {tags : TagSet}

/-! ## A document and its spans -/

/-- What the same surroundings answer throughout is a case of it. -/
theorem mayResolve (segment : Segment) : segment.MayResolve (s.resolve segment).text := by
  cases segment with
  | text content => exact .text content
  | note content => exact .note content
  | diff branch => exact .diff s branch
  | context paths =>
      have asked := Segment.MayResolve.context (paths.map (·, s))
      simpa [resolve, Function.comp_def] using asked

/-- What a piece of a document resolves to has no blank at its ends. -/
theorem tight_resolve {p : Piece} (h : tags.IsPiece p) : Tight (s.resolve p.segment).text :=
  (s.mayResolve p.segment).tight h

/-- A piece on its own expands to what it resolves to. -/
theorem expandText_source {p : Piece} (h : tags.IsPiece p) :
    (s.expandText tags p.source).text = Format.collapse (s.resolve p.segment).text := by
  rw [expandText, TagSet.segments, h.pieces_source]
  exact Format.joinParts_singleton _

/-- The expansions of the spans are their resolved segments, shortened. -/
theorem map_expandText_spans (tags : TagSet) (t : Text) :
    (tags.spans t).map (fun span => (s.expandText tags span.source).text) =
      ((tags.segments t).map fun segment => (s.resolve segment).text).map Format.collapse := by
  rw [TagSet.segments, ← TagSet.map_toPiece_spans, List.map_map, List.map_map, List.map_map]
  refine List.map_congr_left fun span inside => ?_
  exact s.expandText_source (TagSet.isPiece_of_mem_spans inside)

/-- **A document expands to what its spans expand to**, one blank line apart, and a span to what its
segment resolves to, whatever stands around it. -/
theorem expandText_spans (tags : TagSet) (t : Text) :
    (s.expandText tags t).text = "\n\n".toList.intercalate
      (((tags.spans t).map fun span => (s.expandText tags span.source).text).filter (· ≠ [])) ∧
    ∀ span ∈ tags.spans t,
      (s.expandText tags span.source).text = Format.collapse (s.resolve span.segment).text := by
  constructor
  · have tight : ∀ part ∈ (tags.segments t).map fun segment => (s.resolve segment).text,
        Tight part := by
      intro part inside
      simp only [TagSet.segments, List.map_map, List.mem_map] at inside
      obtain ⟨p, inside, rfl⟩ := inside
      exact s.tight_resolve (TagSet.isPiece_of_mem inside)
    rw [s.map_expandText_spans, ← Format.joinParts_eq tight, expandText, expand, List.map_map]
    rfl
  · intro span inside
    exact s.expandText_source (TagSet.isPiece_of_mem_spans inside)

end Surroundings

end PromptDoc
