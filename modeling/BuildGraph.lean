import BuildGraph.Main
import BuildGraph.FileTree
import BuildGraph.Proofs.ByteOrder
import BuildGraph.Proofs.TaskGraph
import BuildGraph.Proofs.CoverageTask
import BuildGraph.Proofs.Registration
import BuildGraph.Proofs.Activation
import BuildGraph.Proofs.Adjustment
import BuildGraph.Proofs.Synthesis
import BuildGraph.Proofs.Pass
import BuildGraph.Proofs.Reachable
import BuildGraph.Proofs.RepeatedPass
import BuildGraph.Proofs.CoveredSuites
import BuildGraph.Proofs.StoppedPass
import BuildGraph.Proofs.BuiltProject
import BuildGraph.Proofs.FirstPass
import BuildGraph.Proofs.Workers
import BuildGraph.Proofs.ModuleGroups
import BuildGraph.Proofs.EnabledCoverage
import BuildGraph.Proofs.Declarations
import BuildGraph.Proofs.PassTasks
import BuildGraph.Proofs.PassPhases
import BuildGraph.Proofs.IncrementalPass
import BuildGraph.Proofs.PropertyLines
import BuildGraph.Proofs.WrittenProperties
import BuildGraph.Proofs.TaskHistory
import BuildGraph.Proofs.InternalFaults
import BuildGraph.Proofs.GeneratedSources
import BuildGraph.Proofs.InlinedReferences
import BuildGraph.Proofs.SettingsDuplicates
import BuildGraph.Proofs.BuildableProjects
import BuildGraph.Proofs.CheckedWorkspace
import BuildGraph.Proofs.AllOrNothing
import BuildGraph.Proofs.RepeatedAdjustment
import BuildGraph.Proofs.TextFields
import BuildGraph.Proofs.PathComponents
import BuildGraph.Proofs.MatrixOutputs
import BuildGraph.Proofs.RequiredReports
import BuildGraph.Proofs.FoldedLines
import BuildGraph.Proofs.ReportPlaces
import BuildGraph.Proofs.UnicodeEscapes
import BuildGraph.Proofs.MatrixNames
import BuildGraph.Proofs.ResolvedCells
import BuildGraph.Proofs.IsolatedCells
import BuildGraph.Proofs.VersionOrder
import BuildGraph.Proofs.ClientThreshold
import BuildGraph.Proofs.CatalogKeys
import BuildGraph.Proofs.MatrixProjects
import BuildGraph.Proofs.BuildDirectories
import BuildGraph.Proofs.Shorthands
import BuildGraph.Proofs.PlainPatterns
import BuildGraph.Proofs.TaskSearch
import BuildGraph.Proofs.LeftOutEntries
import BuildGraph.Proofs.LeftOutDefaults
