import LintGateway.Analysis
import LintGateway.Console.Summary
import LintGateway.Host.Standard
import LintGateway.Import
import LintGateway.Proofs.Analysis.Course
import LintGateway.Proofs.LinterConfig
import LintGateway.Proofs.Reconciliation
import LintGateway.Proofs.Report.Schema
import LintGateway.Proofs.Rule.Registry
import LintGateway.Rule.Activation
import LintGateway.Settings.Load
import LintGateway.Tracked.FileIndex
import LintGateway.Proofs.Analysis.Outcome
import LintGateway.Proofs.Analysis.Effects
import LintGateway.Proofs.Analysis.Agreement
import LintGateway.Proofs.FileTree.Files
import LintGateway.Proofs.Settings.Includes
import LintGateway.Proofs.Text.Utf8
import LintGateway.Proofs.Toml.Names
import LintGateway.Proofs.Settings.Merge
import LintGateway.Proofs.Settings.Layers
import LintGateway.Proofs.Value.Agreement
import LintGateway.Proofs.Rule.Reordering
import LintGateway.Proofs.Json.Scalars
import LintGateway.Proofs.Json.SameDocument
import LintGateway.Proofs.Json.ReadBack
import LintGateway.Proofs.Serialization
import LintGateway.Proofs.ToldSeverity
import LintGateway.Proofs.Rule.Activated
import LintGateway.Proofs.Rule.ActivationData
import LintGateway.Proofs.Rule.Activation
import LintGateway.Proofs.Import
import LintGateway.Proofs.FileTree.LookUp
import LintGateway.Proofs.FileTree.ReadBack
import LintGateway.Proofs.Import.Isolation
import LintGateway.Proofs.Settings.Failures
import LintGateway.Proofs.Settings.ReportPaths
import LintGateway.Proofs.Path
import LintGateway.Proofs.Command.Started
import LintGateway.Proofs.Analysis.ChildView
import LintGateway.Proofs.Report.Variants
import LintGateway.Proofs.Report.FirstFault
import LintGateway.Proofs.Command.Independence
import LintGateway.Proofs.FileTree.Listing
import LintGateway.Proofs.Tracked.Discovery
import LintGateway.Proofs.Report.Bytes
import LintGateway.Proofs.Settings.MergeLaws
import LintGateway.Proofs.Settings.FileSuffixes
import LintGateway.Proofs.Console.Summary
import LintGateway.Proofs.Rule.Key
import LintGateway.Proofs.Rule.StoredOptions
