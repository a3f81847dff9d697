import Formulary.Inspect
import Formulary.Main
import Formulary.Proofs.Arithmetic.Decision
import Formulary.Proofs.Arithmetic.Scanning
import Formulary.Proofs.Formula.Pipeline
import Formulary.Proofs.Formula.RoundTrip
import Formulary.Proofs.Parser.Algebra
import Formulary.Proofs.Parser.Composition
import Formulary.Proofs.Parser.Consumption
import Formulary.Proofs.Parser.Laws
import Formulary.Proofs.Parser.Matching
import Formulary.Proofs.Parser.Replay
import Formulary.Proofs.Tape.Supply
import Formulary.Proofs.Term.Kleene
import Formulary.Proofs.Term.Normal
import Formulary.Proofs.Term.Staging
import Formulary.Proofs.Formula.Token
import Formulary.Proofs.Formula.Layout
import Formulary.Proofs.Tape.Chain
import Formulary.Proofs.Tape.LineReading
import Formulary.Proofs.Document
import Formulary.Proofs.Formula.Conduct
import Formulary.Proofs.Parser.Nesting
import Formulary.Proofs.Parser.Runs
import Formulary.Proofs.Parser.Repetition
import Formulary.Proofs.Formula.Advice
import Formulary.Proofs.Term.Size
import Formulary.Proofs.Term.Symmetry
import Formulary.Proofs.Environment.Loading
import Formulary.Proofs.Remainder
