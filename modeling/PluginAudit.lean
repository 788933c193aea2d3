import PluginAudit.Cancellation
import PluginAudit.Check.Basic
import PluginAudit.Check.Bundled
import PluginAudit.Check.ImageMarkup
import PluginAudit.Check.Loading
import PluginAudit.Check.Readme
import PluginAudit.Check.Registry
import PluginAudit.Command.Arguments
import PluginAudit.Command.Execution
import PluginAudit.Command.Help
import PluginAudit.Context
import PluginAudit.Decimal.Shortest
import PluginAudit.Discovery
import PluginAudit.Entries
import PluginAudit.FileTree
import PluginAudit.Finding
import PluginAudit.HeaderBlock
import PluginAudit.Host.Call
import PluginAudit.Host.Database
import PluginAudit.Host.DatabaseFile
import PluginAudit.Host.DatabaseName
import PluginAudit.Host.Location
import PluginAudit.Host.Memory
import PluginAudit.Host.Opening
import PluginAudit.Host.Overrides
import PluginAudit.Host.Refusal
import PluginAudit.Host.Session
import PluginAudit.Isolation
import PluginAudit.Json.Basic
import PluginAudit.Json.Document
import PluginAudit.Json.Numeral
import PluginAudit.Json.Token
import PluginAudit.Json.Writer
import PluginAudit.License
import PluginAudit.Machine.Basic
import PluginAudit.Machine.Listing
import PluginAudit.Main
import PluginAudit.Path
import PluginAudit.Preparation
import PluginAudit.Program
import PluginAudit.Proofs.ByteNames
import PluginAudit.Proofs.CheckFrame
import PluginAudit.Proofs.DatabaseSteps
import PluginAudit.Proofs.Findings
import PluginAudit.Proofs.HostContract
import PluginAudit.Proofs.Interpretation
import PluginAudit.Proofs.IsolationSteps
import PluginAudit.Proofs.Maps
import PluginAudit.Proofs.MemorySteps
import PluginAudit.Proofs.Naming
import PluginAudit.Proofs.PoolAccount
import PluginAudit.Proofs.PoolSteps
import PluginAudit.Proofs.Reversal
import PluginAudit.Proofs.RunAccount
import PluginAudit.Proofs.RunCases
import PluginAudit.Proofs.RunOrder
import PluginAudit.Proofs.RunRestores
import PluginAudit.Proofs.RunTells
import PluginAudit.Proofs.RuntimeChecks
import PluginAudit.Proofs.RuntimeSlot
import PluginAudit.Proofs.Selection
import PluginAudit.Proofs.Sessions
import PluginAudit.Proofs.Steps
import PluginAudit.Proofs.Trace
import PluginAudit.Readme.Line
import PluginAudit.Readme.Reader
import PluginAudit.Readme.Section
import PluginAudit.Report.Basic
import PluginAudit.Report.Grid
import PluginAudit.Report.Paint
import PluginAudit.Run.Basic
import PluginAudit.Run.Pool
import PluginAudit.Run.Supervision
import PluginAudit.Runner.Launch
import PluginAudit.Runner.Loading
import PluginAudit.Runner.Output
import PluginAudit.Settings
import PluginAudit.Severity
import PluginAudit.Text.Ascii
import PluginAudit.Text.Blank
import PluginAudit.Text.Boundary
import PluginAudit.Text.Case
import PluginAudit.Text.CaseTable
import PluginAudit.Text.Digit
import PluginAudit.Text.Fold
import PluginAudit.Text.Lines
import PluginAudit.Text.Natural
import PluginAudit.Text.Quoted
import PluginAudit.Text.Utf8
import PluginAudit.Text.Visible
import PluginAudit.Text.Width
import PluginAudit.Text.Word
import PluginAudit.Version
import PluginAudit.Proofs.Rollback
import PluginAudit.Proofs.Spelling
import PluginAudit.Proofs.DatabaseCalls
import PluginAudit.Proofs.Registry
import PluginAudit.Proofs.Interleaving
import PluginAudit.Proofs.Seclusion
import PluginAudit.Proofs.IsolationCalls
import PluginAudit.Proofs.RunReturns
import PluginAudit.Proofs.RunVerified
import PluginAudit.Proofs.KeptNamespaces
import PluginAudit.Proofs.RunSpares
import PluginAudit.Proofs.Visits
import PluginAudit.Proofs.SharedStore
import PluginAudit.Proofs.MirrorStores
import PluginAudit.Proofs.HostsAgree
import PluginAudit.Proofs.MigrationScript
import PluginAudit.Proofs.Migrations
import PluginAudit.Proofs.ReadmeLines
import PluginAudit.Proofs.ReadmeManuscript
import PluginAudit.Proofs.Headers
import PluginAudit.Proofs.Utf8
import PluginAudit.Proofs.FailedRunner
import PluginAudit.Proofs.HeaderWindow
import PluginAudit.Proofs.PlacePaths
import PluginAudit.Proofs.TreePlaces
import PluginAudit.Proofs.Listings
import PluginAudit.Proofs.PluginSearch
import PluginAudit.Proofs.VersionText
import PluginAudit.Proofs.DocBlock
import PluginAudit.Proofs.ReadmeLists
import PluginAudit.Proofs.ReadmeAgreement
import PluginAudit.Proofs.RunSchedule
import PluginAudit.Proofs.FindingOrder
import PluginAudit.Proofs.StaticSchedules
import PluginAudit.Proofs.LoadedOnce
import PluginAudit.Proofs.LoadedOverrides
import PluginAudit.Proofs.JsonSpelling
import PluginAudit.Proofs.JsonTokens
import PluginAudit.Proofs.JsonDocuments
import PluginAudit.Proofs.EventMembers
import PluginAudit.Proofs.EventLines
import PluginAudit.Proofs.DecodedLines
import PluginAudit.Proofs.ToldEvents
import PluginAudit.Proofs.IsolationExchanges
import PluginAudit.Proofs.NamespaceNames
import PluginAudit.Proofs.JsonRoundTrip
import PluginAudit.Proofs.StoredOptions
import PluginAudit.Proofs.SnapshotReadings
import PluginAudit.Proofs.BaseKept
import PluginAudit.Proofs.RunWatched
import PluginAudit.Proofs.OverrideCalls
import PluginAudit.Proofs.OverridingCleanup
import PluginAudit.Proofs.TextOrder
import PluginAudit.Proofs.RecordedFindings
import PluginAudit.Proofs.TestedReleases
import PluginAudit.Proofs.LatestReleases
import PluginAudit.Proofs.Capitals
import PluginAudit.Proofs.LicenseCase
import PluginAudit.Proofs.LicenseTokens
import PluginAudit.Proofs.PaddedText
import PluginAudit.Proofs.ReadmeOmissions
import PluginAudit.Proofs.ReadmeOutline
import PluginAudit.Proofs.ReadmeLayout
import PluginAudit.Proofs.ReadmeRules
import PluginAudit.Proofs.IgnoredWarnings
import PluginAudit.Proofs.ContextFiles
import PluginAudit.Proofs.HeaderEntries
import PluginAudit.Proofs.ImageFindings
import PluginAudit.Proofs.RelativePaths
import PluginAudit.Proofs.ReportedPlaces
import PluginAudit.Proofs.DirectoryFiles
import PluginAudit.Proofs.CheckRegistry
import PluginAudit.Proofs.LoadedFindings
import PluginAudit.Proofs.RunnerEnvironment
import PluginAudit.Proofs.CancellationHistory
import PluginAudit.Proofs.JsonIndented
import PluginAudit.Proofs.Inspection
import PluginAudit.Proofs.ReportedAccount
import PluginAudit.Proofs.LeadingOption
import PluginAudit.Proofs.ReleaseAnswers
import PluginAudit.Proofs.RunnerlessCommand
import PluginAudit.Proofs.Boundaries
