import VersionAlignment.Change.Apply
import VersionAlignment.Disk.Tree
import VersionAlignment.Main
import VersionAlignment.Project.Redeclare
import VersionAlignment.Property.Trail
import VersionAlignment.Version.Dotted
import VersionAlignment.Version.Normal
import VersionAlignment.Version.Spelling
import VersionAlignment.Proofs.ConventionalVersions
import VersionAlignment.Proofs.Convergence
import VersionAlignment.Proofs.DeclaredVersions
import VersionAlignment.Proofs.DependencyOverrides
import VersionAlignment.Proofs.LockConsistency
import VersionAlignment.Proofs.PropertyOverrides
import VersionAlignment.Proofs.PropertyWrite
import VersionAlignment.Proofs.Verification
import VersionAlignment.Proofs.EqualVersions
import VersionAlignment.Proofs.BehindOverrides
import VersionAlignment.Proofs.BothSections
import VersionAlignment.Proofs.DeclarationSteps
import VersionAlignment.Proofs.ChangedReferences
import VersionAlignment.Proofs.UnalignedEntries
import VersionAlignment.Proofs.BoundedWalks
import VersionAlignment.Proofs.Downgrades
import VersionAlignment.Proofs.Justifications
import VersionAlignment.Proofs.RedeclaredRuns
import VersionAlignment.Proofs.ReportedDeclarations
import VersionAlignment.Proofs.OwnModules
import VersionAlignment.Proofs.IgnoredModules
import VersionAlignment.Proofs.Discovery
import VersionAlignment.Proofs.TransitivePass
import VersionAlignment.Proofs.QuotedText
import VersionAlignment.Proofs.WrittenLines
import VersionAlignment.Proofs.WrittenTables
import VersionAlignment.Proofs.PlanText
import VersionAlignment.Proofs.DottedVersions
import VersionAlignment.Proofs.ManifestPaths
import VersionAlignment.Proofs.WrittenFiles
import VersionAlignment.Proofs.TreeSessions
import VersionAlignment.Proofs.ManifestRuns
import VersionAlignment.Proofs.PlanRuns
import VersionAlignment.Proofs.VersionTexts
import VersionAlignment.Proofs.ContinuedItems
import VersionAlignment.Proofs.ReleaseSuffixes
import VersionAlignment.Proofs.QualifierSuffixes
import VersionAlignment.Proofs.ImpliedHyphens
import VersionAlignment.Proofs.LatestVersions
import VersionAlignment.Proofs.CoordinateTexts
import VersionAlignment.Proofs.LoadedDescriptors
import VersionAlignment.Proofs.PlannedReports
import VersionAlignment.Proofs.UncoveredCoordinates
import VersionAlignment.Proofs.DecidedDeclarations
import VersionAlignment.Proofs.FilledOptions
import VersionAlignment.Proofs.RearrangedManifests
import VersionAlignment.Proofs.OutsideParents
import VersionAlignment.Proofs.IgnoredStreams
import VersionAlignment.Proofs.GraphWalks
import VersionAlignment.Proofs.RecordedChanges
