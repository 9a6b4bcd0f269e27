import CodeGauge.Decimal.Layout
import CodeGauge.Text.Basic
import CodeGauge.Failure
import CodeGauge.Language
import CodeGauge.Path
import CodeGauge.Json
import CodeGauge.Tree.Walk
import CodeGauge.Tree.TestMark
import CodeGauge.Grammar.Concrete
import CodeGauge.Grammar.Rows
import CodeGauge.Grammar.Java
import CodeGauge.Grammar.Python
import CodeGauge.Grammar.Go
import CodeGauge.Grammar.Rust
import CodeGauge.Grammar.Dispatch
import CodeGauge.Grammar.Lowering
import CodeGauge.Metric.Catalog
import CodeGauge.Metric.Memo
import CodeGauge.Metric.Registry
import CodeGauge.Metric.Request
import CodeGauge.Rule.Basic
import CodeGauge.Rule.RuleSet
import CodeGauge.Report.Run
import CodeGauge.Report.Format
import CodeGauge.Report.Document
import CodeGauge.Report.Text
import CodeGauge.Toml.Date
import CodeGauge.Toml.Document
import CodeGauge.Settings.FileSettings
import CodeGauge.Settings.Basic
import CodeGauge.Settings.Layer
import CodeGauge.Settings.Resolve
import CodeGauge.Settings.Summary
import CodeGauge.Settings.Lookup
import CodeGauge.Glob.Lexeme
import CodeGauge.Glob.Match
import CodeGauge.Glob.Expression
import CodeGauge.Glob.Set
import CodeGauge.Files.Tree
import CodeGauge.Files.IgnoreRule
import CodeGauge.Files.WorkingCopy
import CodeGauge.Files.Walk
import CodeGauge.Files.Filter
import CodeGauge.Files.Sources
import CodeGauge.Command.Arguments
import CodeGauge.Command.Run
import CodeGauge.Main
import CodeGauge.Proofs.DistinctNames
import CodeGauge.Proofs.History
import CodeGauge.Proofs.TrueMemo
import CodeGauge.Proofs.DirectRun
import CodeGauge.Proofs.EachListed
import CodeGauge.Proofs.DirectListing
import CodeGauge.Proofs.CheckListing
import CodeGauge.Proofs.Ownership
import CodeGauge.Proofs.Targets
import CodeGauge.Proofs.TargetScores
import CodeGauge.Proofs.Inquiries
import CodeGauge.Proofs.RaisedThresholds
import CodeGauge.Proofs.LayerFault
import CodeGauge.Proofs.Layering
import CodeGauge.Proofs.PropertyHistory
import CodeGauge.Proofs.SettingsShown
import CodeGauge.Proofs.SplitText
import CodeGauge.Proofs.RuleSetMerge
import CodeGauge.Proofs.ConfiguredRules
import CodeGauge.Proofs.ReportOrder
import CodeGauge.Proofs.SharedSlots
import CodeGauge.Proofs.SeparateFiles
import CodeGauge.Proofs.RuleOrder
import CodeGauge.Proofs.MarkCopies
import CodeGauge.Proofs.RollupValue
import CodeGauge.Proofs.EntryTotals
import CodeGauge.Proofs.CommentsAside
import CodeGauge.Proofs.UncommentedLowering
import CodeGauge.Proofs.UncommentedMetrics
import CodeGauge.Proofs.SkippedTests
import CodeGauge.Proofs.OwnMarks
import CodeGauge.Proofs.FileGroups
import CodeGauge.Proofs.AddressedRules
import CodeGauge.Proofs.ParameterLists
import CodeGauge.Proofs.ValueForm
import CodeGauge.Proofs.HighestValue
import CodeGauge.Proofs.DeclaredProperties
import CodeGauge.Proofs.CheckedProperties
import CodeGauge.Proofs.FilledMessage
import CodeGauge.Proofs.CountComposition
import CodeGauge.Proofs.AttributeRuns
import CodeGauge.Proofs.Interning
import CodeGauge.Proofs.PropertyCalls
import CodeGauge.Proofs.NameSearch
import CodeGauge.Proofs.PendingNodes
import CodeGauge.Proofs.FrameMoves
import CodeGauge.Proofs.ReportReading
