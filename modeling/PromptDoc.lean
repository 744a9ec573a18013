import PromptDoc.CommandError
import PromptDoc.CommandLine.Form
import PromptDoc.CommandLine.Reading
import PromptDoc.CommandLine.Request
import PromptDoc.CommandLine.Run
import PromptDoc.CommandLine.Usage
import PromptDoc.Config.Basic
import PromptDoc.Config.LanguageMap
import PromptDoc.Config.Load
import PromptDoc.Config.Settings
import PromptDoc.Config.Words
import PromptDoc.Document.Paths
import PromptDoc.Document.Versioned
import PromptDoc.Exclude.ExcludeSet
import PromptDoc.Exclude.Gitignore
import PromptDoc.Expansion.Error
import PromptDoc.Expansion.Expand
import PromptDoc.Expansion.Format
import PromptDoc.Expansion.Language
import PromptDoc.Expansion.Standard
import PromptDoc.FileTree.AtomicWrite
import PromptDoc.FileTree.Basic
import PromptDoc.FileTree.Changes
import PromptDoc.FileTree.Disk
import PromptDoc.FileTree.Error
import PromptDoc.FileTree.Locate
import PromptDoc.FileTree.Path
import PromptDoc.FileTree.Script
import PromptDoc.Glob.Basic
import PromptDoc.Glob.Expression
import PromptDoc.Glob.Match
import PromptDoc.Glob.Parse
import PromptDoc.Main
import PromptDoc.Program.Basic
import PromptDoc.Program.Diff
import PromptDoc.Program.Git
import PromptDoc.Proofs.Text.Blanks
import PromptDoc.Proofs.Text.Cut
import PromptDoc.Segment.Basic
import PromptDoc.Segment.Directive
import PromptDoc.Segment.Scan
import PromptDoc.Segment.Table
import PromptDoc.TagSet
import PromptDoc.Text.Basic
import PromptDoc.Text.CaseData
import PromptDoc.Text.CharRanges
import PromptDoc.Text.EscapeData
import PromptDoc.Text.Json
import PromptDoc.Text.Lowercase
import PromptDoc.Text.Quoted
import PromptDoc.Text.Utf8
import PromptDoc.Tool.Call
import PromptDoc.Tool.Cat
import PromptDoc.Tool.Compare
import PromptDoc.Tool.DiffUsage
import PromptDoc.Tool.Ends
import PromptDoc.Tool.Escape
import PromptDoc.Tool.Git
import PromptDoc.Tool.GitConfig
import PromptDoc.Tool.LineDiff
import PromptDoc.Tool.LineMatch
import PromptDoc.Tool.LineShift
import PromptDoc.Tool.Lines
import PromptDoc.Tool.Names
import PromptDoc.Tool.Pattern
import PromptDoc.Tool.Print
import PromptDoc.Tool.Repository
import PromptDoc.Tool.Search
import PromptDoc.Tool.Sha1
import PromptDoc.Tool.Shell
import PromptDoc.Tool.ShellScript
import PromptDoc.Tool.ShellSum
import PromptDoc.Tool.Stream
import PromptDoc.Tool.Table
import PromptDoc.Workspace.Listing
import PromptDoc.Workspace.Root
import PromptDoc.Yaml.Cursor
import PromptDoc.Yaml.Node
import PromptDoc.Yaml.Scalar
import PromptDoc.Yaml.Token
import PromptDoc.Proofs.Segment.PathLines
import PromptDoc.Proofs.Segment.Grammar
import PromptDoc.Proofs.Segment.Scan
import PromptDoc.Proofs.Segment.Partition
import PromptDoc.Proofs.Segment.Leftmost
import PromptDoc.Proofs.Document.Rendering
import PromptDoc.Proofs.Document.FirstBlock
import PromptDoc.Proofs.Document.Adding
import PromptDoc.Proofs.Document.Removing
import PromptDoc.Proofs.Document.History
import PromptDoc.Proofs.Expansion.Collapse
import PromptDoc.Proofs.Expansion.Composition
import PromptDoc.Proofs.Document.Appending
import PromptDoc.Proofs.Expansion.Schedule
import PromptDoc.Proofs.Glob.Words
import PromptDoc.Proofs.Glob.Reading
import PromptDoc.Proofs.Glob.Outline
import PromptDoc.Proofs.Glob.Names
import PromptDoc.Proofs.Exclude.Pruning
import PromptDoc.Proofs.Workspace.Listing
import PromptDoc.Proofs.FileTree.Tree
import PromptDoc.Proofs.FileTree.Walk
import PromptDoc.Proofs.FileTree.Path
import PromptDoc.Proofs.FileTree.Site
import PromptDoc.Proofs.FileTree.Script
import PromptDoc.Proofs.FileTree.AtomicWrite
import PromptDoc.Proofs.CommandLine.Editing
import PromptDoc.Proofs.Expansion.Launches
import PromptDoc.Proofs.Expansion.NormalForm
import PromptDoc.Proofs.Expansion.PlainText
import PromptDoc.Proofs.FileTree.Denotes
import PromptDoc.Proofs.FileTree.Opens
import PromptDoc.Proofs.FileTree.CrashSafety
import PromptDoc.Proofs.FileTree.FailedWrite
import PromptDoc.Proofs.Segment.Locality
import PromptDoc.Proofs.Segment.Unambiguous
import PromptDoc.Proofs.Workspace.Eligible
import PromptDoc.Proofs.Text.Decoding
import PromptDoc.Proofs.CommandLine.Frame
import PromptDoc.Proofs.Document.Representable
import PromptDoc.Proofs.Document.Stepwise
import PromptDoc.Proofs.Document.Unchanged
import PromptDoc.Proofs.Document.Undoing
import PromptDoc.Proofs.Config.Words
import PromptDoc.Proofs.Config.Validation
import PromptDoc.Proofs.Exclude.Members
import PromptDoc.Proofs.Exclude.LiteralLines
import PromptDoc.Proofs.Workspace.Subtraction
import PromptDoc.Proofs.Workspace.GitDirectories
import PromptDoc.Proofs.Workspace.LeadsBack
import PromptDoc.Proofs.Text.Casing
import PromptDoc.Proofs.Segment.Table
import PromptDoc.Proofs.Expansion.Language
import PromptDoc.Proofs.Exclude.NormalForm
import PromptDoc.Proofs.Expansion.Runs
