import AutoDiff.CSource.Evaluate
import AutoDiff.CSource.Text
import AutoDiff.KernelSet.Json
import AutoDiff.KernelSet.Source
import AutoDiff.Trace.Evaluate
import AutoDiff.Path
import AutoDiff.Text.Utf8
import AutoDiff.Disk
import AutoDiff.Artifact.Path
import AutoDiff.Artifact.Interpreted
import AutoDiff.CompiledModel
import AutoDiff.CSource.Library
import AutoDiff.Config.File
import AutoDiff.Host.Staging
import AutoDiff.Backend
import AutoDiff.Host.Standard
import AutoDiff.CommandLine.Run
import AutoDiff.Main
import AutoDiff.Proofs.Expression
import AutoDiff.Proofs.Equivalence
import AutoDiff.Proofs.WellFormed
import AutoDiff.Proofs.Evaluation
import AutoDiff.Proofs.NodeValues
import AutoDiff.Proofs.Unfolding
import AutoDiff.Proofs.Interpretation
import AutoDiff.Proofs.Rules
import AutoDiff.Proofs.Simplification
import AutoDiff.Proofs.Building
import AutoDiff.Proofs.Optimization
import AutoDiff.Proofs.Reachability
import AutoDiff.Proofs.Renumbering
import AutoDiff.Proofs.NormalForms
import AutoDiff.Proofs.Values
import AutoDiff.Proofs.Contribution
import AutoDiff.Proofs.Sweep
import AutoDiff.Proofs.Differentiation
import AutoDiff.Proofs.DerivativeTraces
import AutoDiff.Proofs.Validation
import AutoDiff.Proofs.Synthesis
import AutoDiff.Proofs.Recordings
import AutoDiff.Proofs.RecordedModels
import AutoDiff.Proofs.KernelValues
import AutoDiff.Proofs.UnusedNodes
import AutoDiff.Proofs.Alike
import AutoDiff.Proofs.SourceKernels
import AutoDiff.Proofs.SourceExecution
import AutoDiff.Proofs.Exports
import AutoDiff.Proofs.Interchange
import AutoDiff.Proofs.Jobs
import AutoDiff.Proofs.Usability
import AutoDiff.Proofs.Numerals
import AutoDiff.Proofs.JsonTexts
import AutoDiff.Proofs.KernelFiles
import AutoDiff.Proofs.Paths
import AutoDiff.Proofs.Locations
import AutoDiff.Proofs.ArtifactFiles
import AutoDiff.Proofs.RoundTrips
import AutoDiff.Proofs.StagedFiles
import AutoDiff.Proofs.Compilations
import AutoDiff.Proofs.Parameters
import AutoDiff.Proofs.Replay
import AutoDiff.Proofs.Tapes
import AutoDiff.Proofs.ForeignVariables
import AutoDiff.Proofs.KernelOrders
import AutoDiff.Proofs.ForwardMode
import AutoDiff.Proofs.Refusals
import AutoDiff.Proofs.ExtendedArithmetic
import AutoDiff.Proofs.FiniteFolding
import AutoDiff.Proofs.FiniteOptimization
import AutoDiff.Proofs.FiniteHessian
import AutoDiff.Proofs.ExtendedRational
import AutoDiff.Proofs.NumberLaws
import AutoDiff.Proofs.ExtendedRationalLaws
import AutoDiff.Proofs.UnpackedNumbers
import AutoDiff.Proofs.Binary64Laws
import AutoDiff.Proofs.FiniteValues
import AutoDiff.Proofs.Folding
import AutoDiff.Proofs.AbsorbedZeros
import AutoDiff.Proofs.LostSigns
import AutoDiff.Proofs.SpecialValues
import AutoDiff.Proofs.OutputsApart
import AutoDiff.Proofs.Generation
import AutoDiff.Proofs.SecondDerivatives
import AutoDiff.Proofs.Dependence
import AutoDiff.Proofs.MixedDerivatives
import AutoDiff.Proofs.Regions
import AutoDiff.Proofs.AppendedNodes
import AutoDiff.Proofs.Confinement
import AutoDiff.Proofs.WeightedSums
import AutoDiff.Proofs.StructuralZeros
import AutoDiff.Proofs.Configurations
import AutoDiff.Proofs.PowerExponents
import AutoDiff.Proofs.OutputCounts
import AutoDiff.Proofs.ArtifactPaths
import AutoDiff.Proofs.Insertion
import AutoDiff.Proofs.ExactRounding
import AutoDiff.Proofs.DecimalReading
import AutoDiff.Proofs.RoundingErrors
import AutoDiff.Proofs.ShortestDigits
import AutoDiff.Proofs.FiniteReading
import AutoDiff.Proofs.StoredConstants
