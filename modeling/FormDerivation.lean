import FormDerivation.Main
import FormDerivation.Proofs.Decimal.Integers
import FormDerivation.Proofs.Derivation.Counts
import FormDerivation.Proofs.Derivation.FailurePolicy
import FormDerivation.Proofs.Derivation.Fallbacks
import FormDerivation.Proofs.Derivation.HiddenReferences
import FormDerivation.Proofs.Derivation.HidingCovers
import FormDerivation.Proofs.Derivation.Overlays
import FormDerivation.Proofs.Derivation.ReferenceKeys
import FormDerivation.Proofs.Derivation.RowEntries
import FormDerivation.Proofs.Derivation.ScriptTurns
import FormDerivation.Proofs.Derivation.Snapshot
import FormDerivation.Proofs.Derivation.Traversals
import FormDerivation.Proofs.Element.RoundTrip
import FormDerivation.Proofs.Expression.ScriptReferences
import FormDerivation.Proofs.Host.Environment
import FormDerivation.Proofs.Operator.Blame
import FormDerivation.Proofs.Operator.Dependence
import FormDerivation.Proofs.Operator.Equality
import FormDerivation.Proofs.Operator.Matching
import FormDerivation.Proofs.Operator.YearsBetween
import FormDerivation.Proofs.Registration.Operators
import FormDerivation.Proofs.Script.Classification
import FormDerivation.Proofs.Summary.Places
import FormDerivation.Proofs.Summary.PlainGroups
import FormDerivation.Proofs.Summary.Rereading
import FormDerivation.Proofs.Text.Words
import FormDerivation.Script.Result
