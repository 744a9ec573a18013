/-
# PromptDoc.Document.Paths — reading and editing the first context block

The paths of a document are those of its first context block. `TagSet.addPaths`
and `TagSet.removePaths` write that block anew and leave every other byte of the
document alone; when nothing would change they return the very text they were
given. A document without a block gets one at its end, in the primary spelling.
-/
import PromptDoc.Segment.Scan

namespace PromptDoc

set_option autoImplicit false

/-- The written form of a context block: a line for each path. -/
def renderBlock (tag : Text) (paths : List Text) : Text :=
  openTag tag ++ ['\n'] ++ paths.flatMap (· ++ ['\n']) ++ closeTag tag

/-- A context block in its document: what it lists, and the text around it. -/
structure ContextBlock where
  before : Text
  tag : Text
  paths : List Text
  after : Text

namespace ContextBlock

/-- The first context block among the pieces of a document. -/
def first? : List Piece → Option ContextBlock
  | [] => none
  | p :: ps =>
    match p.segment, p.tag with
    | .context paths, some tag => some ⟨[], tag, paths, Piece.join ps⟩
    | _, _ => (first? ps).map fun b => { b with before := p.source ++ b.before }

/-- The document with the block listing other paths. -/
def withPaths (b : ContextBlock) (paths : List Text) : Text :=
  b.before ++ renderBlock b.tag paths ++ b.after

end ContextBlock

/-- A list of paths extended by those given that it lacks: trimmed, without the
blank ones, each once. -/
def extendPaths (listed : List Text) : List Text → List Text
  | [] => listed
  | path :: paths =>
    let path := Text.trim path
    if path = [] ∨ path ∈ listed then extendPaths listed paths
    else extendPaths (listed ++ [path]) paths

/-- A document with a block after its text, one blank line between. -/
def appendBlock (t block : Text) : Text :=
  match Text.trimEnd t with
  | [] => block ++ ['\n']
  | body => body ++ "\n\n".toList ++ block ++ ['\n']

namespace TagSet

def firstBlock? (tags : TagSet) (t : Text) : Option ContextBlock :=
  ContextBlock.first? (tags.pieces t)

def contextPaths (tags : TagSet) (t : Text) : List Text :=
  match tags.firstBlock? t with
  | some block => block.paths
  | none => []

/-- The document with the given paths added to its first context block. -/
def addPaths (tags : TagSet) (t : Text) (paths : List Text) : Text :=
  match tags.firstBlock? t with
  | some block =>
    let extended := extendPaths block.paths paths
    if extended.length = block.paths.length then t else block.withPaths extended
  | none =>
    match tags.primaryContext?, extendPaths [] paths with
    | none, _ => t
    | some _, [] => t
    | some tag, added => appendBlock t (renderBlock tag added)

/-- The document with the given paths removed from its first context block, which
stays even when it is emptied. -/
def removePaths (tags : TagSet) (t : Text) (paths : List Text) : Text :=
  match tags.firstBlock? t with
  | some block =>
    let remaining := block.paths.filter fun p => !(paths.map Text.trim).contains p
    if remaining.length = block.paths.length then t else block.withPaths remaining
  | none => t

end TagSet

end PromptDoc
