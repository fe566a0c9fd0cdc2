import Verdict.Main
import Verdict.Session
import Verdict.Proofs.Source.ArrayLiteral
import Verdict.Proofs.Source.Balance
import Verdict.Proofs.Source.Conjunction
import Verdict.Proofs.Source.Disjunction
import Verdict.Proofs.Source.Lexing
import Verdict.Proofs.Source.Overflow
import Verdict.Proofs.Source.RoundTrip
import Verdict.Proofs.Descent.Agreement
import Verdict.Proofs.Evaluation.Attribution
import Verdict.Proofs.Evaluation.Dependence
import Verdict.Proofs.Evaluation.Logical
import Verdict.Proofs.Evaluation.Order
import Verdict.Proofs.Session.History
import Verdict.Proofs.Source.Fault
import Verdict.Proofs.Evaluation.Quantity
import Verdict.Proofs.Evaluation.Casting
import Verdict.Proofs.Evaluation.Strict
import Verdict.Proofs.Source.Marks
import Verdict.Proofs.CommandLine.Report
