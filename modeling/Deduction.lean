import Deduction.Formula.Grammar
import Deduction.Formula.Truth
import Deduction.Main
import Deduction.Proofs.Reading
import Deduction.Proofs.RoundTrip
import Deduction.Proofs.Inference
import Deduction.Proofs.Store
import Deduction.Proofs.Derivation
import Deduction.Proofs.Numbering
import Deduction.Proofs.Failure
import Deduction.Proofs.Calls
import Deduction.Proofs.Modes
import Deduction.Proofs.Wildcard
import Deduction.Proofs.Growth
import Deduction.Proofs.Exactness
import Deduction.Proofs.ScriptRun
import Deduction.Proofs.PremiseOrder
import Deduction.Proofs.Parentheses
import Deduction.Proofs.Place
import Deduction.Proofs.DoubleNegation
import Deduction.Proofs.Applications
import Deduction.Proofs.Composition
import Deduction.Proofs.Scanning
import Deduction.Proofs.Ranges
import Deduction.Proofs.Refusals
import Deduction.Proofs.NumberedCalls
import Deduction.Proofs.Spacing
import Deduction.Proofs.CallFormat
import Deduction.Proofs.Senses
import Deduction.Proofs.Escapes
import Deduction.Proofs.Appending
import Deduction.Proofs.Reports
import Deduction.Proofs.References
import Deduction.Proofs.RuleNames
import Deduction.Proofs.Accounting
