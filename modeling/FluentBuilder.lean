import FluentBuilder.Batch
import FluentBuilder.Blueprint
import FluentBuilder.Builder
import FluentBuilder.CommandLine
import FluentBuilder.FileTree
import FluentBuilder.GeneratedFile
import FluentBuilder.Go.File
import FluentBuilder.Go.Grammar.Basic
import FluentBuilder.Go.Grammar.Expressions
import FluentBuilder.Go.Grammar.File
import FluentBuilder.Go.Grammar.Statements
import FluentBuilder.Go.Grammar.Types
import FluentBuilder.Go.Literal
import FluentBuilder.Go.Node
import FluentBuilder.Go.Rule
import FluentBuilder.Go.Source
import FluentBuilder.Go.Tag
import FluentBuilder.Go.Tag.Bytes
import FluentBuilder.Go.Token
import FluentBuilder.Go.Tree
import FluentBuilder.Go.Tree.File
import FluentBuilder.Go.Tree.Type
import FluentBuilder.Go.Type
import FluentBuilder.Go.Walk
import FluentBuilder.Json
import FluentBuilder.Layout
import FluentBuilder.Main
import FluentBuilder.Members
import FluentBuilder.Naming
import FluentBuilder.Options
import FluentBuilder.Path
import FluentBuilder.Report
import FluentBuilder.Results
import FluentBuilder.Signature
import FluentBuilder.SnakeCase
import FluentBuilder.SourceCache
import FluentBuilder.Target
import FluentBuilder.Text.Blank
import FluentBuilder.Text.CaseMap
import FluentBuilder.Text.Casing
import FluentBuilder.Text.FinalSigma
import FluentBuilder.Text.Identifier
import FluentBuilder.Text.LetterCase
import FluentBuilder.Text.Numeric
import FluentBuilder.Text.Span
import FluentBuilder.Proofs.Cache
import FluentBuilder.Proofs.Serving
import FluentBuilder.Proofs.Delivery
import FluentBuilder.Proofs.Paths
import FluentBuilder.Proofs.Resolve
import FluentBuilder.Proofs.Components
import FluentBuilder.Proofs.OutputPath
import FluentBuilder.Proofs.Walk
import FluentBuilder.Proofs.Traversal
import FluentBuilder.Proofs.Shape
import FluentBuilder.Proofs.Declared
import FluentBuilder.Proofs.Sites
import FluentBuilder.Proofs.Lowered
import FluentBuilder.Proofs.Reached
import FluentBuilder.Proofs.Isolation
import FluentBuilder.Proofs.Location
import FluentBuilder.Proofs.Code
import FluentBuilder.Proofs.Conflicts
import FluentBuilder.Proofs.Meaning
import FluentBuilder.Proofs.Lexer
import FluentBuilder.Proofs.TypeGrammar
import FluentBuilder.Proofs.Unambiguous
import FluentBuilder.Proofs.History
import FluentBuilder.Proofs.Transparency
import FluentBuilder.Proofs.Scoping
import FluentBuilder.Proofs.Lines
import FluentBuilder.Proofs.Recovery
import FluentBuilder.Proofs.Footprint
import FluentBuilder.Proofs.Reruns
import FluentBuilder.Proofs.Agreement
import FluentBuilder.Proofs.Reserved
import FluentBuilder.Proofs.Capitals
import FluentBuilder.Proofs.Namespace
import FluentBuilder.Proofs.OptionLists
import FluentBuilder.Proofs.Extraction
import FluentBuilder.Proofs.Scans
import FluentBuilder.Proofs.Lookahead
import FluentBuilder.Proofs.Spacing
import FluentBuilder.Proofs.Lengths
import FluentBuilder.Proofs.Faults
import FluentBuilder.Proofs.Tidiness
import FluentBuilder.Proofs.Literals
import FluentBuilder.Proofs.Tags
import FluentBuilder.Proofs.WordBreaks
import FluentBuilder.Proofs.CamelCase
import FluentBuilder.Proofs.Writing
import FluentBuilder.Proofs.Nesting
import FluentBuilder.Proofs.Alignment
import FluentBuilder.Proofs.ByteEscapes
import FluentBuilder.Proofs.Accounts
import FluentBuilder.Proofs.Indentation
import FluentBuilder.Proofs.Boundaries
import FluentBuilder.Proofs.Reading
import FluentBuilder.Proofs.Integers
import FluentBuilder.Proofs.ExpressionReading
import FluentBuilder.Proofs.Expressions
import FluentBuilder.Proofs.OperationReading
import FluentBuilder.Proofs.OperandReading
import FluentBuilder.Proofs.TypeReading
import FluentBuilder.Proofs.Brackets
import FluentBuilder.Proofs.Balanced
import FluentBuilder.Proofs.FunctionReading
import FluentBuilder.Proofs.SignatureReading
import FluentBuilder.Proofs.StatementReading
import FluentBuilder.Proofs.FieldReading
import FluentBuilder.Proofs.BuilderReading
import FluentBuilder.Proofs.BuilderText
import FluentBuilder.Proofs.ParsedNames
import FluentBuilder.Proofs.Rereading
