import Boxferry.Library.CommandRuns
import Boxferry.Model.Values
import Boxferry.Model.Metadata
import Boxferry.Library.IpText
import Boxferry.Model.Deferred
import Boxferry.Model.Service
import Boxferry.Model.Application
import Boxferry.Library.Results
import Boxferry.Model.ApplicationRuns
import Boxferry.Library.JsonText
import Boxferry.Lens.Documents
import Boxferry.Library.Decimal
import Boxferry.Bundle.Transport
import Boxferry.Bundle.Accepted
import Boxferry.Bundle.HeaderText
import Boxferry.Bundle.RoundTrip
import Boxferry.Model.MetadataTrees
import Boxferry.Quadlet.MetadataRecords
import Boxferry.Quadlet.MetadataRoundTrip
import Boxferry.Engine.Adapter
import Boxferry.Library.Reports
import Boxferry.Library.UnitWords
import Boxferry.Quadlet.Export.Core
import Boxferry.Quadlet.Export.Command
import Boxferry.Quadlet.Import.Core
import Boxferry.Library.Groups
import Boxferry.Quadlet.Export.Metadata
import Boxferry.Quadlet.Import.Metadata
import Boxferry.Quadlet.MetadataTransfer
import Boxferry.Library.Related
import Boxferry.Library.Attempts
import Boxferry.Podman.Deployment
import Boxferry.Podman.Export
import Boxferry.Library.Lookup
import Boxferry.Podman.Transactions
import Boxferry.Podman.Containers
import Boxferry.Podman.Resources
import Boxferry.Podman.KeptRuns
import Boxferry.Podman.Consistency
import Boxferry.Podman.Accounting
import Boxferry.Model.Text
import Boxferry.Quadlet.Export.Scalars
import Boxferry.Quadlet.Import.Scalars
import Boxferry.Quadlet.ScalarAgreement
import Boxferry.Podman.Import.Events
import Boxferry.Podman.Import.Containers
import Boxferry.Podman.Import.Networking
import Boxferry.Podman.Import.Mapping
import Boxferry.Podman.Import.Kept
import Boxferry.Podman.Import.Noninterference
import Boxferry.Library.LastWins
import Boxferry.Podman.Import.Closure
import Boxferry.Podman.Import.Subjects
import Boxferry.Podman.Import.Evidence
import Boxferry.Podman.Import.Dropped
import Boxferry.Podman.Import.Rows
import Boxferry.Podman.Import.Accounting
import Boxferry.Library.Directories
import Boxferry.Output
import Boxferry.Quadlet.GeneratedAssignments
import Boxferry.Library.CountedOrder
import Boxferry.Quadlet.Export.Dependencies
import Boxferry.Quadlet.Import.Dependencies
import Boxferry.Quadlet.DependencyTransfer
import Boxferry.Podman.Exposed
import Boxferry.Podman.ProtectedTexts
import Boxferry.Automation.Checkpoints
import Boxferry.Automation.Contexts
import Boxferry.Automation.Dependencies
import Boxferry.Automation.Effects
import Boxferry.Automation.Fences
import Boxferry.Automation.Quarantine
import Boxferry.Automation.AtMostOnce
import Boxferry.Library.DepthFirst
import Boxferry.Model.ArtifactDependencies
import Boxferry.Cli.Candidates
import Boxferry.Library.CountedCycles
import Boxferry.Model.HostBinds
import Boxferry.Quadlet.Export.SinglePod
import Boxferry.Quadlet.Export.Startable
import Boxferry.Cli.Redaction
import Boxferry.Cli.SupportBundle
import Boxferry.Library.PathSteps
import Boxferry.Quadlet.Export.Mounts
import Boxferry.Quadlet.Export.VolumeFields
import Boxferry.Automation.Policy
import Boxferry.Automation.Gate
import Boxferry.Automation.OpaqueEvidence
import Boxferry.Automation.Selection
import Boxferry.Quadlet.Export.ResolvedPaths
import Boxferry.Library.Scanning
import Boxferry.Quadlet.Export.Numerals
import Boxferry.Quadlet.HealthDurations
import Boxferry.Quadlet.HostMappings
import Boxferry.Quadlet.PublishedPorts
import Boxferry.Quadlet.SecretGrants
import Boxferry.Engine.NativeEvidence
import Boxferry.Library.GroupedAssignments
import Boxferry.Library.PositionalColumns
import Boxferry.Quadlet.HealthCommands
import Boxferry.Quadlet.Import.BuildEnvironment
import Boxferry.Quadlet.NetworkIpam
import Boxferry.Automation.GitChanges
import Boxferry.Automation.MergedBudgets
import Boxferry.Automation.MergedObjects
import Boxferry.Cli.ConversionReport
import Boxferry.Cli.EnforcedLimits
import Boxferry.Cli.ReportFitting
import Boxferry.Compose.MetadataImport
import Boxferry.Library.StackWalk
import Boxferry.Compose.MetadataSites
import Boxferry.Compose.MetadataAccounting
import Boxferry.Automation.Manifests
import Boxferry.Library.Worklist
import Boxferry.Automation.CargoLock
import Boxferry.Automation.FirstPartyExemption
import Boxferry.Automation.ScanCursor
import Boxferry.Automation.ScanRuns
import Boxferry.Library.JsonNumber
import Boxferry.Automation.FeatureLocks
import Boxferry.Model.MetadataClosure
import Boxferry.Automation.CommandSyntax
import Boxferry.Library.FencedWords
import Boxferry.Library.TextLines
import Boxferry.Automation.PinBlocks
import Boxferry.Automation.PinUpgrades
import Boxferry.Library.StableSort
import Boxferry.Model.ApplicationHistories
import Boxferry.Cli.ReportOutcome
import Boxferry.Cli.SerializedReport
import Boxferry.Cli.BundleTransport
import Boxferry.Podman.Import.Release
import Boxferry.Automation.RedactedResults
