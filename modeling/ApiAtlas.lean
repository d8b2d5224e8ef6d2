import ApiAtlas.Analysis
import ApiAtlas.Command.Arguments
import ApiAtlas.Command.Run
import ApiAtlas.Decimal.Binary64
import ApiAtlas.Dict
import ApiAtlas.Document.Grammar
import ApiAtlas.Document.Parse
import ApiAtlas.Document.Slice
import ApiAtlas.Document.Tree
import ApiAtlas.Entity.Codec
import ApiAtlas.Failure
import ApiAtlas.FileTree.Basic
import ApiAtlas.FileTree.Ignore
import ApiAtlas.Glob.Matching
import ApiAtlas.Glob.Pattern
import ApiAtlas.Graph.Assembly
import ApiAtlas.Graph.Basic
import ApiAtlas.Graph.Codec
import ApiAtlas.Graph.Index
import ApiAtlas.Graph.Walk
import ApiAtlas.Identifier
import ApiAtlas.Interface.Basic
import ApiAtlas.Interface.Comment
import ApiAtlas.Interface.Declaration
import ApiAtlas.Json.Decoder
import ApiAtlas.Json.Draft
import ApiAtlas.Json.Printer
import ApiAtlas.Json.Value
import ApiAtlas.Layer
import ApiAtlas.Main
import ApiAtlas.Matching
import ApiAtlas.Operation.Basic
import ApiAtlas.Operation.Script
import ApiAtlas.Path
import ApiAtlas.Proofs.Document.Acceptance
import ApiAtlas.Proofs.Document.Alike
import ApiAtlas.Proofs.Document.Chunk
import ApiAtlas.Proofs.Document.Cutting
import ApiAtlas.Proofs.Document.Faithful
import ApiAtlas.Proofs.Document.Joining
import ApiAtlas.Proofs.Document.Keyword
import ApiAtlas.Proofs.Document.Lexeme
import ApiAtlas.Proofs.Document.Locality.Definition
import ApiAtlas.Proofs.Document.Locality.Value
import ApiAtlas.Proofs.Document.Naming
import ApiAtlas.Proofs.Document.Nesting
import ApiAtlas.Proofs.Document.Pieces
import ApiAtlas.Proofs.Document.Tiling
import ApiAtlas.Proofs.Document.Trimming
import ApiAtlas.Proofs.Graph.Account
import ApiAtlas.Proofs.Graph.Adjacency
import ApiAtlas.Proofs.Graph.Assembly
import ApiAtlas.Proofs.Graph.Chain
import ApiAtlas.Proofs.Graph.Distinct
import ApiAtlas.Proofs.Graph.Extraction
import ApiAtlas.Proofs.Graph.Index
import ApiAtlas.Proofs.Graph.Isolation
import ApiAtlas.Proofs.Graph.Merging
import ApiAtlas.Proofs.Graph.NodeIds
import ApiAtlas.Proofs.Graph.Nodes
import ApiAtlas.Proofs.Graph.Persistence
import ApiAtlas.Proofs.Graph.Reachability
import ApiAtlas.Proofs.Graph.Uses
import ApiAtlas.Proofs.Graph.WellFormed
import ApiAtlas.Proofs.Identifier
import ApiAtlas.Proofs.Identifier.Key
import ApiAtlas.Proofs.Identifier.Spelling
import ApiAtlas.Proofs.Interface.Block
import ApiAtlas.Proofs.Interface.Body
import ApiAtlas.Proofs.Interface.Comment
import ApiAtlas.Proofs.Interface.Layout
import ApiAtlas.Proofs.Interface.Literal
import ApiAtlas.Proofs.Interface.Opaque
import ApiAtlas.Proofs.Interface.Quote
import ApiAtlas.Proofs.Interface.Reading
import ApiAtlas.Proofs.Interface.RoundTrip
import ApiAtlas.Proofs.Interface.Traced
import ApiAtlas.Proofs.Json.Decoding
import ApiAtlas.Proofs.Json.Pruning
import ApiAtlas.Proofs.Json.Reading
import ApiAtlas.Proofs.Json.Token
import ApiAtlas.Proofs.Layer
import ApiAtlas.Proofs.Matching
import ApiAtlas.Proofs.Operation.Document
import ApiAtlas.Proofs.Operation.Joining
import ApiAtlas.Proofs.Operation.Script
import ApiAtlas.Proofs.Operation.Template
import ApiAtlas.Proofs.Path
import ApiAtlas.Proofs.Regex.Matching
import ApiAtlas.Proofs.Regex.Reading
import ApiAtlas.Proofs.Report.Difference
import ApiAtlas.Proofs.Report.Filter
import ApiAtlas.Proofs.Report.Impact
import ApiAtlas.Proofs.Report.Selection
import ApiAtlas.Proofs.Resolver.Agreement
import ApiAtlas.Proofs.Resolver.Detached
import ApiAtlas.Proofs.Resolver.Head
import ApiAtlas.Proofs.Resolver.Outbound
import ApiAtlas.Proofs.Resolver.Textual
import ApiAtlas.Proofs.Screen.Route
import ApiAtlas.Proofs.Settings.Codec
import ApiAtlas.Proofs.Settings.Partial
import ApiAtlas.Proofs.Syntax.Place
import ApiAtlas.Proofs.Syntax.Replace
import ApiAtlas.Proofs.Text.Run
import ApiAtlas.Regex
import ApiAtlas.Report.Codec
import ApiAtlas.Report.Difference
import ApiAtlas.Report.Filter
import ApiAtlas.Report.Impact
import ApiAtlas.Report.Selection
import ApiAtlas.Resolver.Basic
import ApiAtlas.Resolver.Files
import ApiAtlas.Resolver.Outbound
import ApiAtlas.Resolver.Scan
import ApiAtlas.Resolver.Textual
import ApiAtlas.Screen.Basic
import ApiAtlas.Screen.Route
import ApiAtlas.Script.ClassBody
import ApiAtlas.Script.Decoration
import ApiAtlas.Script.Expression
import ApiAtlas.Script.Goal
import ApiAtlas.Script.Import
import ApiAtlas.Script.Lexical
import ApiAtlas.Script.Markup
import ApiAtlas.Script.Method
import ApiAtlas.Script.Parse
import ApiAtlas.Script.Pattern
import ApiAtlas.Script.Statement
import ApiAtlas.Script.TypeExpression
import ApiAtlas.Settings.Basic
import ApiAtlas.Settings.Codec
import ApiAtlas.Settings.Load
import ApiAtlas.Source.Basic
import ApiAtlas.Source.Collection
import ApiAtlas.Syntax.Tree
import ApiAtlas.Syntax.Visit
import ApiAtlas.Text.Blank
import ApiAtlas.Text.Case
import ApiAtlas.Text.CaseTable
import ApiAtlas.Text.Quoted
import ApiAtlas.Text.QuotedTable
import ApiAtlas.Text.Range
import ApiAtlas.Text.Raw
import ApiAtlas.Text.Search
import ApiAtlas.Text.Word
import ApiAtlas.Text.WordTable
