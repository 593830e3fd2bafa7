import Reduct.Main
import Reduct.Workbench.Basic
import Reduct.Proofs.Source.Groups
import Reduct.Proofs.Source.Parse
import Reduct.Proofs.Source.Continuation
import Reduct.Proofs.Term.Parts
import Reduct.Proofs.Term.RoundTrip
import Reduct.Proofs.Eval.Denote
import Reduct.Proofs.Env.History
import Reduct.Proofs.Env.Dependency
import Reduct.Proofs.Eval.Termination
import Reduct.Proofs.Eval.Rules
import Reduct.Proofs.Eval.Context
import Reduct.Proofs.Eval.Divergence
import Reduct.Proofs.Eval.Locality
import Reduct.Proofs.Eval.LookupCycles
import Reduct.Proofs.Eval.Budget
import Reduct.Proofs.Eval.Invocations
import Reduct.Proofs.Source.Concatenation
import Reduct.Proofs.Source.Recall
import Reduct.Proofs.Source.Blame
import Reduct.Proofs.Session.Outcomes
import Reduct.Proofs.Session.Drivers
import Reduct.Proofs.Env.Arithmetic
import Reduct.Proofs.Eval.Classes
import Reduct.Proofs.Eval.Equality
import Reduct.Proofs.Text.Denotation
import Reduct.Proofs.Text.Numeral
import Reduct.Proofs.Source.Tokens
import Reduct.Proofs.Source.Conversion
import Reduct.Proofs.Source.Outline
import Reduct.Proofs.Session.Trimming
