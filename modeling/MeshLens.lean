import MeshLens.Channel
import MeshLens.CommandLine.Arguments
import MeshLens.CommandLine.Command
import MeshLens.CommandLine.Help
import MeshLens.CommandLine.Report
import MeshLens.CommandLine.Run
import MeshLens.Comparison
import MeshLens.Completion
import MeshLens.Config.Basic
import MeshLens.Config.Defaults
import MeshLens.Config.Document
import MeshLens.Config.Merge
import MeshLens.Config.Reader
import MeshLens.Display
import MeshLens.Entries
import MeshLens.FileEntry
import MeshLens.FileName
import MeshLens.FileSystem
import MeshLens.FileTree
import MeshLens.Find
import MeshLens.Graph.Basic
import MeshLens.Graph.Definition
import MeshLens.Graph.Element
import MeshLens.Graph.Kind
import MeshLens.Graph.Removal
import MeshLens.Graph.Store
import MeshLens.Graph.Takeout
import MeshLens.Graph.Traversal
import MeshLens.Hide
import MeshLens.Hide.Closure
import MeshLens.Hide.Mode
import MeshLens.Hide.Workspace
import MeshLens.Main
import MeshLens.Notice
import MeshLens.Number.Binary64
import MeshLens.Number.Integer
import MeshLens.Number.Literal
import MeshLens.Number.Shortest
import MeshLens.Params
import MeshLens.Path
import MeshLens.Proofs.CommandLine.CommandsAgree
import MeshLens.Proofs.CompletionCorrect
import MeshLens.Proofs.Config.ErrorSections
import MeshLens.Proofs.Config.Merge
import MeshLens.Proofs.Config.ValidConfigs
import MeshLens.Proofs.Entries
import MeshLens.Proofs.Find.FindIdempotent
import MeshLens.Proofs.Find.MarkReplacement
import MeshLens.Proofs.Find.MarkingEffect
import MeshLens.Proofs.ForStd
import MeshLens.Proofs.Graph.AddAllOrNothing
import MeshLens.Proofs.Graph.AdjacencyTables
import MeshLens.Proofs.Graph.BuiltInvariant
import MeshLens.Proofs.Graph.CascadeLeast
import MeshLens.Proofs.Graph.ConnectedConverse
import MeshLens.Proofs.Graph.ElementChanges
import MeshLens.Proofs.Graph.NoHangingEdges
import MeshLens.Proofs.Graph.RemoveCorrect
import MeshLens.Proofs.Graph.RenderRequests
import MeshLens.Proofs.Graph.RestoreUndoesRemove
import MeshLens.Proofs.Graph.SelectSpec
import MeshLens.Proofs.Hide.BatchedRendering
import MeshLens.Proofs.Hide.BoxRoundsLeast
import MeshLens.Proofs.Hide.BoxesApart
import MeshLens.Proofs.Hide.ClassIndependence
import MeshLens.Proofs.Hide.ClosureExact
import MeshLens.Proofs.Hide.ClosureRemainder
import MeshLens.Proofs.Hide.ConcealEffect
import MeshLens.Proofs.Hide.HideFrame
import MeshLens.Proofs.Hide.HideIdempotent
import MeshLens.Proofs.Hide.HideMonotone
import MeshLens.Proofs.Hide.HistoryIndependence
import MeshLens.Proofs.Hide.LayoutRequests
import MeshLens.Proofs.Hide.ModesAgree
import MeshLens.Proofs.Hide.OtherSnapshots
import MeshLens.Proofs.Hide.ReapplySucceeds
import MeshLens.Proofs.Hide.SelectionInvariance
import MeshLens.Proofs.Hide.ViewConsistency
import MeshLens.Proofs.Hide.VisibleState
import MeshLens.Proofs.Number.LiteralChars
import MeshLens.Proofs.Number.LiteralSyntax
import MeshLens.Proofs.Params.ForeignKept
import MeshLens.Proofs.Params.ReadBack
import MeshLens.Proofs.Query.AlternativesMeaning
import MeshLens.Proofs.Query.CanonicalWords
import MeshLens.Proofs.Query.CompileCorrect
import MeshLens.Proofs.Query.CriteriaMatching
import MeshLens.Proofs.Query.Grammar
import MeshLens.Proofs.Query.Lexeme
import MeshLens.Proofs.Query.Meaning
import MeshLens.Proofs.Query.NegationComplement
import MeshLens.Proofs.Query.QuotedValues
import MeshLens.Proofs.Query.Requests
import MeshLens.Proofs.Query.RequestsFixedPoint
import MeshLens.Proofs.Query.RequestsGranted
import MeshLens.Proofs.Query.ResolveMeaning
import MeshLens.Proofs.Query.RespelledSpans
import MeshLens.Proofs.Query.Respelling
import MeshLens.Proofs.Query.Spacing
import MeshLens.Proofs.Query.SpellingCompiles
import MeshLens.Proofs.Query.VerbatimValues
import MeshLens.Proofs.Selector.ParseAccepted
import MeshLens.Proofs.Selector.ReadBack
import MeshLens.Proofs.Selector.RenderReadBack
import MeshLens.Proofs.Selector.RoundTrip
import MeshLens.Proofs.Selector.Scan
import MeshLens.Proofs.Selector.ScannersAgree
import MeshLens.Proofs.Selector.Syntax
import MeshLens.Proofs.Session.DetachedUnchanged
import MeshLens.Proofs.Session.Evaluation
import MeshLens.Proofs.Session.FallbackSelector
import MeshLens.Proofs.Session.FindHideCommute
import MeshLens.Proofs.Session.FirstAttach
import MeshLens.Proofs.Session.InputsApart
import MeshLens.Proofs.Session.MarksInStep
import MeshLens.Proofs.Session.MessageInvariant
import MeshLens.Proofs.Session.RefreshUnchanged
import MeshLens.Proofs.Session.Run
import MeshLens.Proofs.Session.RunSteps
import MeshLens.Proofs.Session.SettledQueries
import MeshLens.Proofs.Session.StepEffect
import MeshLens.Proofs.Session.StoredParameters
import MeshLens.Proofs.Session.ViewInForce
import MeshLens.Proofs.Text.Split
import MeshLens.Proofs.Text.Trim
import MeshLens.Proofs.Text.Utf8
import MeshLens.Proofs.Url.Form
import MeshLens.Proofs.Url.Location
import MeshLens.Proofs.Value.PlainNonempty
import MeshLens.Query.Basic
import MeshLens.Query.Canonical
import MeshLens.Query.Compile
import MeshLens.Query.Compiler
import MeshLens.Query.Phrase
import MeshLens.Query.Vocabulary
import MeshLens.Search
import MeshLens.Selector.Basic
import MeshLens.Selector.Matching
import MeshLens.Selector.Reader
import MeshLens.Session
import MeshLens.Text.Basic
import MeshLens.Text.CharClass
import MeshLens.Text.CodePoint
import MeshLens.Text.ControlSequence
import MeshLens.Text.LowerCase
import MeshLens.Text.Quoted
import MeshLens.Text.Surrogate
import MeshLens.Text.Utf8
import MeshLens.Url.Address
import MeshLens.Url.Form
import MeshLens.Url.Location
import MeshLens.Value.Basic
import MeshLens.Value.Form
import MeshLens.Value.Json
import MeshLens.Workspace
import MeshLens.Yaml.Block
import MeshLens.Yaml.Cursor
import MeshLens.Yaml.Document
import MeshLens.Yaml.Error
import MeshLens.Yaml.Handle
import MeshLens.Yaml.Moment
import MeshLens.Yaml.Node
import MeshLens.Yaml.Plain
import MeshLens.Yaml.Quoted
import MeshLens.Yaml.Scalar
import MeshLens.Yaml.Tag
import MeshLens.Yaml.Token
