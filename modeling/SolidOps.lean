import SolidOps.Interchange
import SolidOps.Session
import SolidOps.Proofs.Binding.Law
import SolidOps.Proofs.Binding.Naming
import SolidOps.Proofs.Binding.Omission
import SolidOps.Proofs.Binding.Trace
import SolidOps.Proofs.Call.Reordering
import SolidOps.Proofs.Call.Trees
import SolidOps.Proofs.Call.Written
import SolidOps.Proofs.Context.Uses
import SolidOps.Proofs.Normalisation
import SolidOps.Proofs.Registration
import SolidOps.Proofs.Text.Settings
import SolidOps.Proofs.Numeric.Coercion
import SolidOps.Proofs.Text.Lowercase
import SolidOps.Proofs.Resolution.Subdivision
import SolidOps.Proofs.Call.Exchange
import SolidOps.Proofs.Resolution.Numbers
import SolidOps.Proofs.Resolution.Equality
import SolidOps.Proofs.Resolution.Filling
import SolidOps.Proofs.Binding.Account
import SolidOps.Proofs.Context.Evaluation
import SolidOps.Proofs.Session
