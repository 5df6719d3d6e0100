import CiPipeline.Annotations
import CiPipeline.Checkouts
import CiPipeline.CommandLine
import CiPipeline.Condition.Expression
import CiPipeline.Condition.Lexer
import CiPipeline.Condition.Parser
import CiPipeline.Condition.Token
import CiPipeline.Configuration
import CiPipeline.Configuration.Setting
import CiPipeline.Container
import CiPipeline.Decimal.Nearest
import CiPipeline.Decimal.Shortest
import CiPipeline.Document
import CiPipeline.Download
import CiPipeline.Execution
import CiPipeline.Expansion
import CiPipeline.Failure
import CiPipeline.Files.Access
import CiPipeline.Files.Path
import CiPipeline.Files.Tree
import CiPipeline.Http.Status
import CiPipeline.Include.Cache
import CiPipeline.Include.Directive
import CiPipeline.Include.Resolution
import CiPipeline.Include.Target
import CiPipeline.IncludeUrl
import CiPipeline.Inheritance
import CiPipeline.Job
import CiPipeline.JobFields
import CiPipeline.JobName
import CiPipeline.Json.Layout
import CiPipeline.Json.Reader
import CiPipeline.Main
import CiPipeline.Node
import CiPipeline.Normalization
import CiPipeline.Number
import CiPipeline.Pattern.Basic
import CiPipeline.Pattern.Class
import CiPipeline.Pattern.Matching
import CiPipeline.Pattern.Property
import CiPipeline.Pattern.Reader
import CiPipeline.Pipeline
import CiPipeline.Pipeline.Loading
import CiPipeline.Problem
import CiPipeline.Proofs.Condition.Composition
import CiPipeline.Proofs.Condition.Grammar
import CiPipeline.Proofs.Condition.Lexemes
import CiPipeline.Proofs.Condition.Lexing
import CiPipeline.Proofs.Condition.ParserSteps
import CiPipeline.Proofs.Condition.Parsing
import CiPipeline.Proofs.Condition.Variables
import CiPipeline.Proofs.Document.Ancestry
import CiPipeline.Proofs.Document.Annotations
import CiPipeline.Proofs.Document.Completion
import CiPipeline.Proofs.Document.Entries
import CiPipeline.Proofs.Document.FailurePlaces
import CiPipeline.Proofs.Document.FieldOrder
import CiPipeline.Proofs.Document.Inheritance
import CiPipeline.Proofs.Document.Insertion
import CiPipeline.Proofs.Document.JobFields
import CiPipeline.Proofs.Document.JoinedLines
import CiPipeline.Proofs.Document.Merging
import CiPipeline.Proofs.Document.Overriding
import CiPipeline.Proofs.Document.ReferenceChains
import CiPipeline.Proofs.Document.ReferenceFree
import CiPipeline.Proofs.Document.ReferenceHops
import CiPipeline.Proofs.Document.ReferenceTransfer
import CiPipeline.Proofs.Document.References
import CiPipeline.Proofs.Document.Reordering
import CiPipeline.Proofs.Document.Repetition
import CiPipeline.Proofs.Document.Scripts
import CiPipeline.Proofs.Document.Splicing
import CiPipeline.Proofs.Download
import CiPipeline.Proofs.Expansion
import CiPipeline.Proofs.Files.Confinement
import CiPipeline.Proofs.Files.Effects
import CiPipeline.Proofs.Files.Emptying
import CiPipeline.Proofs.Files.Path
import CiPipeline.Proofs.Files.Runs
import CiPipeline.Proofs.Files.Tree
import CiPipeline.Proofs.Files.Walks
import CiPipeline.Proofs.Files.Ways
import CiPipeline.Proofs.Include.Agreement
import CiPipeline.Proofs.Include.ArchiveFolder
import CiPipeline.Proofs.Include.ArchiveLine
import CiPipeline.Proofs.Include.Archives
import CiPipeline.Proofs.Include.CacheEffects
import CiPipeline.Proofs.Include.Concurrency
import CiPipeline.Proofs.Include.Confinement
import CiPipeline.Proofs.Include.Directive
import CiPipeline.Proofs.Include.FailurePlaces
import CiPipeline.Proofs.Include.Fetches
import CiPipeline.Proofs.Include.Graph
import CiPipeline.Proofs.Include.Interleavings
import CiPipeline.Proofs.Include.KeptFiles
import CiPipeline.Proofs.Include.Places
import CiPipeline.Proofs.Include.Plans
import CiPipeline.Proofs.Include.Preparation
import CiPipeline.Proofs.Include.Separation
import CiPipeline.Proofs.Include.Settling
import CiPipeline.Proofs.Include.StaleLinks
import CiPipeline.Proofs.Include.Stillness
import CiPipeline.Proofs.Include.Storage
import CiPipeline.Proofs.Include.TargetSteps
import CiPipeline.Proofs.Include.Traversal
import CiPipeline.Proofs.Pipeline.FailurePlaces
import CiPipeline.Proofs.Pipeline.Independence
import CiPipeline.Proofs.Pipeline.JobBuilding
import CiPipeline.Proofs.Pipeline.JobFailures
import CiPipeline.Proofs.Pipeline.JobParts
import CiPipeline.Proofs.Pipeline.JobTable
import CiPipeline.Proofs.Pipeline.NestedRules
import CiPipeline.Proofs.Pipeline.NormalForm
import CiPipeline.Proofs.Pipeline.Repetition
import CiPipeline.Proofs.Pipeline.Scheduling
import CiPipeline.Proofs.Pipeline.Stages
import CiPipeline.Proofs.Pipeline.VariableLayers
import CiPipeline.Proofs.Repository.Origins
import CiPipeline.Proofs.Sequencing
import CiPipeline.Proofs.Shell.Quoting
import CiPipeline.Proofs.Shell.Reading
import CiPipeline.Proofs.Shell.Splitting
import CiPipeline.Proofs.Text.Blanks
import CiPipeline.Proofs.Trails
import CiPipeline.Proofs.Workspace
import CiPipeline.Proofs.Yaml.BlockScalars
import CiPipeline.Proofs.Yaml.Lexing
import CiPipeline.Proofs.Yaml.Rejoining
import CiPipeline.Proofs.Yaml.Scalars
import CiPipeline.Proofs.Yaml.TokenRuns
import CiPipeline.Proofs.Yaml.TokenSteps
import CiPipeline.Proofs.Yaml.Tokens
import CiPipeline.References
import CiPipeline.Report
import CiPipeline.Repository
import CiPipeline.Repository.Reading
import CiPipeline.Rules
import CiPipeline.Shell.Evaluation
import CiPipeline.Shell.Word
import CiPipeline.Table
import CiPipeline.Text.Basic
import CiPipeline.Text.Category
import CiPipeline.Text.Characters
import CiPipeline.Text.CodePoints
import CiPipeline.Text.Columns
import CiPipeline.Text.LetterCase
import CiPipeline.Text.Lines
import CiPipeline.Text.Lowercase
import CiPipeline.Text.Quoted
import CiPipeline.Text.Script
import CiPipeline.Text.Utf8
import CiPipeline.Toml.Reader
import CiPipeline.Toml.Table
import CiPipeline.Trail
import CiPipeline.Url
import CiPipeline.Url.Host
import CiPipeline.Url.Punycode
import CiPipeline.Variables
import CiPipeline.Version
import CiPipeline.Workspace
import CiPipeline.Yaml.Cursor
import CiPipeline.Yaml.Lexer
import CiPipeline.Yaml.Node
import CiPipeline.Yaml.Scalar
import CiPipeline.Yaml.Token
import CiPipeline.Yaml.Tree
import CiPipeline.Yaml.Value
import CiPipeline.Yaml.Writer
