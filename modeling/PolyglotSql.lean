import PolyglotSql.Batch.Cache
import PolyglotSql.Batch.Document
import PolyglotSql.Batch.Format
import PolyglotSql.Batch.Outcome
import PolyglotSql.Batch.Reuse
import PolyglotSql.Batch.Script
import PolyglotSql.Binary64.Basic
import PolyglotSql.Binary64.Notation
import PolyglotSql.Binary64.Reading
import PolyglotSql.Binary64.Scaling
import PolyglotSql.Binary64.Shortest
import PolyglotSql.Canonical.Literal
import PolyglotSql.Canonical.Query
import PolyglotSql.Canonical.Scope
import PolyglotSql.CommandLine.Invocation
import PolyglotSql.CommandLine.Option
import PolyglotSql.Dialect.Adapt
import PolyglotSql.Dialect.Basic
import PolyglotSql.Dialect.Registry
import PolyglotSql.Dialect.Replacement
import PolyglotSql.Dialect.RowNumbers
import PolyglotSql.Dialect.Rules
import PolyglotSql.Document.Basic
import PolyglotSql.Document.Json
import PolyglotSql.Document.JsonReader
import PolyglotSql.Document.TomlReader
import PolyglotSql.Document.Yaml
import PolyglotSql.Failure
import PolyglotSql.FunctionCatalogue
import PolyglotSql.Main
import PolyglotSql.Proofs.Batch.Capacity
import PolyglotSql.Proofs.Batch.Lines
import PolyglotSql.Proofs.Batch.Recall
import PolyglotSql.Proofs.Batch.Reuse
import PolyglotSql.Proofs.Canonical.Acceptance
import PolyglotSql.Proofs.Canonical.Attributes
import PolyglotSql.Proofs.Canonical.Conditions
import PolyglotSql.Proofs.Canonical.Constants
import PolyglotSql.Proofs.Canonical.Erasure
import PolyglotSql.Proofs.Canonical.Gathering
import PolyglotSql.Proofs.Canonical.Integers
import PolyglotSql.Proofs.Canonical.Limits
import PolyglotSql.Proofs.Canonical.Mentions
import PolyglotSql.Proofs.Canonical.Paths
import PolyglotSql.Proofs.Canonical.References
import PolyglotSql.Proofs.Canonical.Schemas
import PolyglotSql.Proofs.Canonical.Selects
import PolyglotSql.Proofs.Canonical.Shapes
import PolyglotSql.Proofs.Dialect.Adaptation
import PolyglotSql.Proofs.Dialect.Completeness
import PolyglotSql.Proofs.Dialect.Enclosing
import PolyglotSql.Proofs.Dialect.Idempotence
import PolyglotSql.Proofs.Dialect.Layers
import PolyglotSql.Proofs.Dialect.Links
import PolyglotSql.Proofs.Dialect.Preservation
import PolyglotSql.Proofs.Dialect.Replacement
import PolyglotSql.Proofs.Dialect.Rewriting
import PolyglotSql.Proofs.Dialect.Rules
import PolyglotSql.Proofs.Dialect.SelectLists
import PolyglotSql.Proofs.Dialect.Selects
import PolyglotSql.Proofs.Dialect.Supplanting
import PolyglotSql.Proofs.Dialect.Tables
import PolyglotSql.Proofs.Dialect.Walk
import PolyglotSql.Proofs.Rendering.Arithmetic
import PolyglotSql.Proofs.Rendering.Bindings
import PolyglotSql.Proofs.Rendering.Columns
import PolyglotSql.Proofs.Rendering.Comparisons
import PolyglotSql.Proofs.Rendering.Conditions
import PolyglotSql.Proofs.Rendering.Delimiting
import PolyglotSql.Proofs.Rendering.Logic
import PolyglotSql.Proofs.Rendering.Modes
import PolyglotSql.Proofs.Rendering.Names
import PolyglotSql.Proofs.Rendering.Operands
import PolyglotSql.Proofs.Rendering.Paging
import PolyglotSql.Proofs.Rendering.Patterns
import PolyglotSql.Proofs.Rendering.Pieces
import PolyglotSql.Proofs.Rendering.Placeholders
import PolyglotSql.Proofs.Rendering.Precedence
import PolyglotSql.Proofs.Rendering.Reading
import PolyglotSql.Proofs.Rendering.Scanning
import PolyglotSql.Proofs.Rendering.Seams
import PolyglotSql.Proofs.Rendering.Spacing
import PolyglotSql.Proofs.Rendering.Styles
import PolyglotSql.Proofs.Rendering.Surroundings
import PolyglotSql.Proofs.Rendering.Verbatim
import PolyglotSql.Proofs.Rendering.Windows
import PolyglotSql.Proofs.Rendering.Writing
import PolyglotSql.Proofs.Row.Sameness
import PolyglotSql.Proofs.Schema.Declarations
import PolyglotSql.Proofs.Schema.Fingerprint
import PolyglotSql.Proofs.StatedPlace
import PolyglotSql.Proofs.Translation
import PolyglotSql.Proofs.Tree.Appending
import PolyglotSql.Proofs.Tree.Building
import PolyglotSql.Proofs.Tree.Copying
import PolyglotSql.Proofs.Tree.Descendants
import PolyglotSql.Proofs.Tree.Graft
import PolyglotSql.Proofs.Tree.Independence
import PolyglotSql.Proofs.Tree.Layout
import PolyglotSql.Proofs.Tree.Links
import PolyglotSql.Proofs.Tree.Operations
import PolyglotSql.Proofs.Tree.Placing
import PolyglotSql.Proofs.Tree.Qualifiers
import PolyglotSql.Proofs.Tree.Reading
import PolyglotSql.Proofs.Tree.Recording
import PolyglotSql.Proofs.Tree.Rendering
import PolyglotSql.Proofs.Tree.Replacing
import PolyglotSql.Proofs.Tree.Run
import PolyglotSql.Proofs.Tree.SelectLists
import PolyglotSql.Proofs.Tree.Stopping
import PolyglotSql.Proofs.Tree.Touring
import PolyglotSql.Proofs.Tree.Visiting
import PolyglotSql.Proofs.Tree.WellFormed
import PolyglotSql.Rendering.Pagination
import PolyglotSql.Rendering.Placeholder
import PolyglotSql.Rendering.Quoting
import PolyglotSql.Rendering.Sink
import PolyglotSql.Row
import PolyglotSql.Run
import PolyglotSql.Schema.Attribute
import PolyglotSql.Schema.Catalog
import PolyglotSql.Schema.Declaration
import PolyglotSql.Schema.SqlType
import PolyglotSql.Settings.Basic
import PolyglotSql.Sql.Keyword
import PolyglotSql.Sql.Lexer
import PolyglotSql.Sql.Literal
import PolyglotSql.Sql.Outline
import PolyglotSql.Sql.Parser.Alteration
import PolyglotSql.Sql.Parser.Basic
import PolyglotSql.Sql.Parser.Call
import PolyglotSql.Sql.Parser.Column
import PolyglotSql.Sql.Parser.Control
import PolyglotSql.Sql.Parser.DataType
import PolyglotSql.Sql.Parser.DocumentTable
import PolyglotSql.Sql.Parser.Drop
import PolyglotSql.Sql.Parser.KeyValue
import PolyglotSql.Sql.Parser.Manipulation
import PolyglotSql.Sql.Parser.Object
import PolyglotSql.Sql.Parser.Operand
import PolyglotSql.Sql.Parser.Operator
import PolyglotSql.Sql.Parser.OperatorDeclaration
import PolyglotSql.Sql.Parser.Pipe
import PolyglotSql.Sql.Parser.Query
import PolyglotSql.Sql.Parser.Right
import PolyglotSql.Sql.Parser.Routine
import PolyglotSql.Sql.Parser.RowPattern
import PolyglotSql.Sql.Parser.Select
import PolyglotSql.Sql.Parser.Session
import PolyglotSql.Sql.Parser.Setting
import PolyglotSql.Sql.Parser.Statement
import PolyglotSql.Sql.Parser.Table
import PolyglotSql.Sql.Parser.TableChange
import PolyglotSql.Sql.Parser.TableDeclaration
import PolyglotSql.Sql.Parser.Transaction
import PolyglotSql.Sql.Parser.Transfer
import PolyglotSql.Sql.Parser.TypeDeclaration
import PolyglotSql.Sql.Parser.Upkeep
import PolyglotSql.Sql.Parser.View
import PolyglotSql.Sql.Printer
import PolyglotSql.Sql.Script
import PolyglotSql.Sql.Syntax
import PolyglotSql.Sql.Token
import PolyglotSql.Term.Basic
import PolyglotSql.Term.Build
import PolyglotSql.Term.Selection
import PolyglotSql.Text.Basic
import PolyglotSql.Text.CharClass
import PolyglotSql.Text.Quoted
import PolyglotSql.Translator
import PolyglotSql.Tree.Basic
import PolyglotSql.Tree.Edit
import PolyglotSql.Tree.Node
import PolyglotSql.Tree.Render
import PolyglotSql.Tree.Walk
import PolyglotSql.Value
