import EntityConventions.Analyzer
import EntityConventions.ClassContext
import EntityConventions.ClassIndex
import EntityConventions.Classifier
import EntityConventions.CommandLine.Arguments
import EntityConventions.CommandLine.Run
import EntityConventions.Config
import EntityConventions.Decimal.Binary64
import EntityConventions.Decimal.Digits
import EntityConventions.Decimal.Shortest
import EntityConventions.Declaration.Basic
import EntityConventions.Declaration.Json
import EntityConventions.Declaration.Options
import EntityConventions.Environment
import EntityConventions.FileTree
import EntityConventions.Finding
import EntityConventions.Glob.Match
import EntityConventions.Glob.Pattern
import EntityConventions.Glob.Walk
import EntityConventions.Json.Basic
import EntityConventions.Json.Numeral
import EntityConventions.Json.Printer
import EntityConventions.Json.Reader
import EntityConventions.Json.Record
import EntityConventions.Main
import EntityConventions.Model
import EntityConventions.Name
import EntityConventions.Path
import EntityConventions.Project
import EntityConventions.Reflection
import EntityConventions.Report
import EntityConventions.Rule
import EntityConventions.Rule.ColumnComment
import EntityConventions.Rule.EntityTestBase
import EntityConventions.Rule.ExclusiveIndexColumn
import EntityConventions.Rule.ImmutableDates
import EntityConventions.Rule.IndexNamePrefix
import EntityConventions.Rule.ParameterlessConstructor
import EntityConventions.Rule.RangeMessages
import EntityConventions.Rule.RepositoryConstant
import EntityConventions.Rule.Violation
import EntityConventions.TestGate
import EntityConventions.Text.Blank
import EntityConventions.Text.Quoted
import EntityConventions.Text.Unprintable
import EntityConventions.Toml.Access
import EntityConventions.Toml.Basic
import EntityConventions.Toml.Document
import EntityConventions.Toml.Packed
import EntityConventions.Toml.Reader
import EntityConventions.Toml.Scanner
import EntityConventions.Proofs.Checking
import EntityConventions.Proofs.Digits
import EntityConventions.Proofs.JsonDecoding
import EntityConventions.Proofs.JsonGrammar
import EntityConventions.Proofs.JsonPrinting
import EntityConventions.Proofs.JsonReading
import EntityConventions.Proofs.JsonRecord
import EntityConventions.Proofs.ModelReading
import EntityConventions.Proofs.ModelRoundTrip
import EntityConventions.Proofs.ModelSpelling
import EntityConventions.Proofs.Sorting
import EntityConventions.Proofs.Insertion
import EntityConventions.Proofs.Resolution
import EntityConventions.Proofs.Documents
import EntityConventions.Proofs.Requalified
import EntityConventions.Proofs.Verdicts
import EntityConventions.Proofs.ReportRoundTrip
import EntityConventions.Proofs.Discovery
import EntityConventions.Proofs.Presets
import EntityConventions.Proofs.FailureMessages
import EntityConventions.Proofs.FrontEnds
import EntityConventions.Proofs.Lines
import EntityConventions.Proofs.Names
import EntityConventions.Proofs.Paths
import EntityConventions.Proofs.Spellings
import EntityConventions.Proofs.Walking
import EntityConventions.Proofs.Selection
import EntityConventions.Proofs.InitialConfig
import EntityConventions.Proofs.CompactReports
import EntityConventions.Proofs.RuleReading
import EntityConventions.Proofs.EntityTests
import EntityConventions.Proofs.IndexedAssociations
import EntityConventions.Proofs.RangeOptions
import EntityConventions.Proofs.ColumnComments
import EntityConventions.Proofs.RepositoryConstants
import EntityConventions.Proofs.ChangedAttributes
import EntityConventions.Proofs.IndexNames
import EntityConventions.Proofs.MutableTypes
import EntityConventions.Proofs.ConstructorParameters
import EntityConventions.Proofs.Independence
import EntityConventions.Proofs.Positions
import EntityConventions.Proofs.ReportOrder
import EntityConventions.Proofs.Ancestors
import EntityConventions.Proofs.ReportedPaths
import EntityConventions.Proofs.RecursivePatterns
import EntityConventions.Proofs.ExcludedPackages
import EntityConventions.Proofs.IgnoredFiles
import EntityConventions.Proofs.AnalyzerSettings
import EntityConventions.Proofs.RuleFilters
import EntityConventions.Proofs.CanonicalPlaces
import EntityConventions.Proofs.NearestConfig
