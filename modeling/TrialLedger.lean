import TrialLedger.Main
import TrialLedger.Script.Contract
import TrialLedger.Proofs.PendingEffects
import TrialLedger.Proofs.WellFormed
import TrialLedger.Proofs.CallValue.History
import TrialLedger.Proofs.Check.Matching
import TrialLedger.Proofs.Engine.Isolation
import TrialLedger.Proofs.Engine.Refused
import TrialLedger.Proofs.GasBudget
import TrialLedger.Proofs.World.Digest
import TrialLedger.Proofs.SetAndCheck
import TrialLedger.Proofs.PaymentTold
import TrialLedger.Proofs.Termination
import TrialLedger.Proofs.Interpretation
import TrialLedger.Proofs.Misspelled
import TrialLedger.Proofs.Strict
import TrialLedger.Proofs.Crash
import TrialLedger.Proofs.Leftovers
import TrialLedger.Proofs.OwnStorage
import TrialLedger.Proofs.CallValue.Payments
import TrialLedger.Proofs.Verdict
import TrialLedger.Proofs.Callbacks
import TrialLedger.Proofs.Vault.Solvency
import TrialLedger.Proofs.Check.Expectation
import TrialLedger.Proofs.Fixture.Literal
import TrialLedger.Proofs.Fixture.Amount
import TrialLedger.Proofs.Fixture.Concatenation
import TrialLedger.Proofs.World.Exact
import TrialLedger.Proofs.StepIds
import TrialLedger.Proofs.Token
import TrialLedger.Proofs.Json.Parser
