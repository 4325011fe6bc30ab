import SelfDual.Journal.Command
import SelfDual.Optimality
import SelfDual.Proofs.Atomicity
import SelfDual.Proofs.Breakdown
import SelfDual.Proofs.BrokenIteration
import SelfDual.Proofs.CertificateTests
import SelfDual.Proofs.Certificates
import SelfDual.Proofs.ConstraintResidual
import SelfDual.Proofs.Delivery
import SelfDual.Proofs.Factorization
import SelfDual.Proofs.GreatestStep
import SelfDual.Proofs.Homogeneity
import SelfDual.Proofs.Loggers
import SelfDual.Proofs.NearOptimal
import SelfDual.Proofs.Passes
import SelfDual.Proofs.ReorderedSolve
import SelfDual.Proofs.ResidualAgreement
import SelfDual.Proofs.RowOperations
import SelfDual.Proofs.Snapping
import SelfDual.Proofs.TableRows
import SelfDual.Proofs.Tolerance
import SelfDual.Report.Table
import SelfDual.Solve.Request
