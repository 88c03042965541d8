import QueryPaging.Artifact
import QueryPaging.Augmentation
import QueryPaging.Command.Arguments
import QueryPaging.Command.Flag
import QueryPaging.Command.Options
import QueryPaging.Command.Output
import QueryPaging.Command.Running
import QueryPaging.Command.Style
import QueryPaging.Config.Basic
import QueryPaging.Config.Loading
import QueryPaging.Config.Reading
import QueryPaging.Config.Validity
import QueryPaging.Diagnostic
import QueryPaging.Document
import QueryPaging.Document.Collecting
import QueryPaging.Embedding
import QueryPaging.Fault
import QueryPaging.Files.Access
import QueryPaging.Files.Path
import QueryPaging.Files.Pattern
import QueryPaging.Files.Search
import QueryPaging.Files.Tree
import QueryPaging.Graphql.FieldPath
import QueryPaging.Graphql.Inspection
import QueryPaging.Graphql.Name
import QueryPaging.Graphql.Printing
import QueryPaging.Graphql.Reading.Document
import QueryPaging.Graphql.Reading.Executable
import QueryPaging.Graphql.Reading.Reader
import QueryPaging.Graphql.Reading.System
import QueryPaging.Graphql.Reading.Value
import QueryPaging.Graphql.StringLiteral
import QueryPaging.Graphql.Syntax
import QueryPaging.Graphql.Token
import QueryPaging.Graphql.TypeRef
import QueryPaging.Graphql.TypeRef.Text
import QueryPaging.Graphql.TypeSystem
import QueryPaging.Graphql.Value
import QueryPaging.Identity
import QueryPaging.Json.Basic
import QueryPaging.Json.Reading
import QueryPaging.Json.Writing
import QueryPaging.Main
import QueryPaging.Metadata.Basic
import QueryPaging.Metadata.Building
import QueryPaging.NameRegistry
import QueryPaging.PaginatedField
import QueryPaging.PagingMode
import QueryPaging.PassDirective
import QueryPaging.Pipeline
import QueryPaging.Project
import QueryPaging.Promotion
import QueryPaging.Proofs.Accounting
import QueryPaging.Proofs.Additions
import QueryPaging.Proofs.Annotations
import QueryPaging.Proofs.Augmenting
import QueryPaging.Proofs.Batches
import QueryPaging.Proofs.CacheKeys
import QueryPaging.Proofs.CanonicalTexts
import QueryPaging.Proofs.Capture
import QueryPaging.Proofs.Claiming
import QueryPaging.Proofs.Closure
import QueryPaging.Proofs.Completion
import QueryPaging.Proofs.ConfiguredNames
import QueryPaging.Proofs.Conflicts
import QueryPaging.Proofs.Consistency
import QueryPaging.Proofs.Correspondence
import QueryPaging.Proofs.Coupling
import QueryPaging.Proofs.Coverage
import QueryPaging.Proofs.Declarations
import QueryPaging.Proofs.Disputes
import QueryPaging.Proofs.Expansion
import QueryPaging.Proofs.Faithfulness
import QueryPaging.Proofs.Faulting
import QueryPaging.Proofs.FieldEdits
import QueryPaging.Proofs.Finding
import QueryPaging.Proofs.Fitting
import QueryPaging.Proofs.Framing
import QueryPaging.Proofs.Generation
import QueryPaging.Proofs.Growth
import QueryPaging.Proofs.HintPlaces
import QueryPaging.Proofs.Hinting
import QueryPaging.Proofs.Hygiene
import QueryPaging.Proofs.Identification
import QueryPaging.Proofs.Independence
import QueryPaging.Proofs.Inlining
import QueryPaging.Proofs.InputTypes
import QueryPaging.Proofs.Interleaving
import QueryPaging.Proofs.JsonText
import QueryPaging.Proofs.Levels
import QueryPaging.Proofs.LinePositions
import QueryPaging.Proofs.Locating
import QueryPaging.Proofs.Lookups
import QueryPaging.Proofs.Markings
import QueryPaging.Proofs.Marks
import QueryPaging.Proofs.Merging
import QueryPaging.Proofs.Naming
import QueryPaging.Proofs.ParameterCodec
import QueryPaging.Proofs.Passage
import QueryPaging.Proofs.Precedence
import QueryPaging.Proofs.Promoting
import QueryPaging.Proofs.Recording
import QueryPaging.Proofs.Redeclaring
import QueryPaging.Proofs.References
import QueryPaging.Proofs.RefetchText
import QueryPaging.Proofs.RefetchValues
import QueryPaging.Proofs.Registries
import QueryPaging.Proofs.Repetition
import QueryPaging.Proofs.Reporting
import QueryPaging.Proofs.ResponseKeys
import QueryPaging.Proofs.Scheduling
import QueryPaging.Proofs.Scoping
import QueryPaging.Proofs.Selections
import QueryPaging.Proofs.Sites
import QueryPaging.Proofs.Sources
import QueryPaging.Proofs.Spelling
import QueryPaging.Proofs.StringText
import QueryPaging.Proofs.Stripping
import QueryPaging.Proofs.Sufficiency
import QueryPaging.Proofs.Suitability
import QueryPaging.Proofs.Tables
import QueryPaging.Proofs.Traversal
import QueryPaging.Proofs.TypeGrammar
import QueryPaging.Proofs.TypeText
import QueryPaging.Proofs.Uniqueness
import QueryPaging.Proofs.ValueText
import QueryPaging.Proofs.VariableSets
import QueryPaging.Proofs.Wiring
import QueryPaging.Proofs.WrapperNames
import QueryPaging.RawText
import QueryPaging.Record
import QueryPaging.Refetch
import QueryPaging.Refetch.Building
import QueryPaging.Refetch.Json
import QueryPaging.Schema.Basic
import QueryPaging.Schema.Build
import QueryPaging.Schema.BuiltIn
import QueryPaging.Schema.Connection
import QueryPaging.Schema.Validity
import QueryPaging.Sha256
import QueryPaging.Table
import QueryPaging.Text.Blank
import QueryPaging.Text.Decimal
import QueryPaging.Text.Escape
import QueryPaging.Text.Position
import QueryPaging.VariableSet
import QueryPaging.Workers
import QueryPaging.Yaml.Basic
import QueryPaging.Yaml.Layout
import QueryPaging.Yaml.Meaning
import QueryPaging.Yaml.Place
import QueryPaging.Yaml.Reading
import QueryPaging.Yaml.Scalar
import QueryPaging.Yaml.Token
