import LateBinding.CommandLine.Execute
import LateBinding.CommandLine.Trace
import LateBinding.Main
import LateBinding.Proofs.Absorption
import LateBinding.Proofs.Accounting
import LateBinding.Proofs.Arguments
import LateBinding.Proofs.Buckets
import LateBinding.Proofs.Categories
import LateBinding.Proofs.Clock
import LateBinding.Proofs.Equality
import LateBinding.Proofs.FailedCalls
import LateBinding.Proofs.InPlace
import LateBinding.Proofs.Layers
import LateBinding.Proofs.LookupOrder
import LateBinding.Proofs.Overrides
import LateBinding.Proofs.Portions
import LateBinding.Proofs.Removal
import LateBinding.Proofs.Resets
import LateBinding.Proofs.Resolution
import LateBinding.Proofs.Scenarios
import LateBinding.Proofs.SessionFields
import LateBinding.Proofs.ShapeKeys
import LateBinding.Proofs.ShuffledScenario
import LateBinding.Proofs.Thresholds
import LateBinding.Proofs.Traits
import LateBinding.Proofs.Tuning
import LateBinding.Proofs.Variables
import LateBinding.Proofs.Variadics
import LateBinding.Proofs.Verdicts
