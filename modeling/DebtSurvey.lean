import DebtSurvey.Age
import DebtSurvey.Analysis.Audit
import DebtSurvey.Analysis.Functions
import DebtSurvey.Analysis.Markers
import DebtSurvey.Analysis.Staleness
import DebtSurvey.Base64
import DebtSurvey.Calendar.Date
import DebtSurvey.Calendar.Moment
import DebtSurvey.Calendar.Reader
import DebtSurvey.Code.Complexity
import DebtSurvey.Code.Function
import DebtSurvey.Code.Marker
import DebtSurvey.Code.Occurrence
import DebtSurvey.Command
import DebtSurvey.CommandLine.Arguments
import DebtSurvey.CommandLine.Console
import DebtSurvey.CommandLine.Program
import DebtSurvey.Datum
import DebtSurvey.Digest
import DebtSurvey.Event
import DebtSurvey.Finding.Basic
import DebtSurvey.Finding.Identity
import DebtSurvey.History.Porcelain
import DebtSurvey.History.Provider
import DebtSurvey.Imports.Graph
import DebtSurvey.Imports.Specifier
import DebtSurvey.Imports.Statement
import DebtSurvey.Job
import DebtSurvey.Json.Basic
import DebtSurvey.Json.Display
import DebtSurvey.Json.Reader
import DebtSurvey.Json.Writer
import DebtSurvey.Main
import DebtSurvey.Number.Basic
import DebtSurvey.Number.Binary64
import DebtSurvey.Number.Decimal
import DebtSurvey.Proofs.AddedFinding
import DebtSurvey.Proofs.Ageing
import DebtSurvey.Proofs.Agreement
import DebtSurvey.Proofs.AuditOutcome
import DebtSurvey.Proofs.BlameAnswer
import DebtSurvey.Proofs.BlameContent
import DebtSurvey.Proofs.BlameHeader
import DebtSurvey.Proofs.BlameMemory
import DebtSurvey.Proofs.BlameOutput
import DebtSurvey.Proofs.BlameRows
import DebtSurvey.Proofs.BlameRuns
import DebtSurvey.Proofs.CommitAge
import DebtSurvey.Proofs.CommitDate
import DebtSurvey.Proofs.Conservation
import DebtSurvey.Proofs.ConstantAnswers
import DebtSurvey.Proofs.DayCount
import DebtSurvey.Proofs.Declaration
import DebtSurvey.Proofs.Decoration
import DebtSurvey.Proofs.Discovery
import DebtSurvey.Proofs.DistinctIds
import DebtSurvey.Proofs.DistinctNames
import DebtSurvey.Proofs.Elsewhere
import DebtSurvey.Proofs.FanIn
import DebtSurvey.Proofs.FileLimit
import DebtSurvey.Proofs.FileOutcome
import DebtSurvey.Proofs.FileRun
import DebtSurvey.Proofs.FileWork
import DebtSurvey.Proofs.FindingKeys
import DebtSurvey.Proofs.FindingShape
import DebtSurvey.Proofs.FloatRange
import DebtSurvey.Proofs.FunctionBody
import DebtSurvey.Proofs.FunctionPlaces
import DebtSurvey.Proofs.GainedReturns
import DebtSurvey.Proofs.ImportForms
import DebtSurvey.Proofs.IndependentSettings
import DebtSurvey.Proofs.Interleaving
import DebtSurvey.Proofs.ItemLines
import DebtSurvey.Proofs.KeyText
import DebtSurvey.Proofs.LineAttribution
import DebtSurvey.Proofs.LineBreak
import DebtSurvey.Proofs.LineEnds
import DebtSurvey.Proofs.LinkedTree
import DebtSurvey.Proofs.Listing
import DebtSurvey.Proofs.MarkedLines
import DebtSurvey.Proofs.MarkerLists
import DebtSurvey.Proofs.MarkerWords
import DebtSurvey.Proofs.Nearest
import DebtSurvey.Proofs.Numeral
import DebtSurvey.Proofs.OneLine
import DebtSurvey.Proofs.OneLineFindings
import DebtSurvey.Proofs.OutsideImports
import DebtSurvey.Proofs.PoolInvariant
import DebtSurvey.Proofs.Progress
import DebtSurvey.Proofs.Ranking
import DebtSurvey.Proofs.ReportContent
import DebtSurvey.Proofs.RepositoryRoot
import DebtSurvey.Proofs.Rescan
import DebtSurvey.Proofs.Rounding
import DebtSurvey.Proofs.Scan
import DebtSurvey.Proofs.ScanFailure
import DebtSurvey.Proofs.Session
import DebtSurvey.Proofs.SettingsDocument
import DebtSurvey.Proofs.SharedBody
import DebtSurvey.Proofs.SourceLines
import DebtSurvey.Proofs.SourceText
import DebtSurvey.Proofs.Specifier
import DebtSurvey.Proofs.Spelling
import DebtSurvey.Proofs.StaleAge
import DebtSurvey.Proofs.StaleFiles
import DebtSurvey.Proofs.Tightening
import DebtSurvey.Proofs.WorldPart
import DebtSurvey.Proofs.WrittenDocument
import DebtSurvey.Proofs.WrittenToken
import DebtSurvey.Report.Document
import DebtSurvey.Report.File
import DebtSurvey.Report.Markdown
import DebtSurvey.Scan.FileWork
import DebtSurvey.Scan.Pool
import DebtSurvey.Scan.Selection
import DebtSurvey.Scan.Session
import DebtSurvey.Settings.Basic
import DebtSurvey.Settings.Loader
import DebtSurvey.Settings.Reader
import DebtSurvey.Snapshot
import DebtSurvey.Stats
import DebtSurvey.Text.Basic
import DebtSurvey.Text.Blank
import DebtSurvey.Text.Case
import DebtSurvey.Text.CodePoint
import DebtSurvey.Text.Digit
import DebtSurvey.Text.Newline
import DebtSurvey.Text.Printable
import DebtSurvey.Text.Range
import DebtSurvey.Text.Utf8
import DebtSurvey.Text.Word
import DebtSurvey.Workspace.Discovery
import DebtSurvey.Workspace.Glob
import DebtSurvey.Workspace.Path
import DebtSurvey.Workspace.Source
import DebtSurvey.Workspace.Tree
import DebtSurvey.World
import DebtSurvey.Yaml.Cursor
import DebtSurvey.Yaml.Document
import DebtSurvey.Yaml.Error
import DebtSurvey.Yaml.Lexer
import DebtSurvey.Yaml.Node
import DebtSurvey.Yaml.Number
import DebtSurvey.Yaml.Scalar
import DebtSurvey.Yaml.Tag
import DebtSurvey.Yaml.Timestamp
import DebtSurvey.Yaml.Token
