import TrialLedger.Check.Logs
import TrialLedger.Engine.Basic

/-! What is expected of the result of a transaction. The parts are compared in the order
status, message, data, logs, gas. -/

namespace TrialLedger.Check

structure Expectation where
  out : ListPattern := .unspecified
  status : Pattern Int := .unspecified
  message : Pattern Bytes := .unspecified
  logs : LogsPattern := .unspecified
  gas : Pattern Int := .unspecified

/-- A status with its message. -/
def statusText (r : TransactionResult) : String := toString r.status.code ++ " (" ++ r.message.display ++ ")"

/-- The first part after the status that is not as expected. -/
def Expectation.laterMismatch (e : Expectation) (r : TransactionResult) (message : Bytes) : Option Mismatch :=
  (e.message.mismatch "message" message fun _ => r.message).or <|
    (e.out.mismatch "out" r.data).or <|
      (e.logs.mismatch r.logs).or (e.gas.mismatchBy sameAmount "gas" r.gasRemaining fun g => g.value)

/-- The first part that is not as expected. A message has to have bytes, whether they are compared
or not, unless the status is wrong. -/
def Expectation.mismatch (e : Expectation) (r : TransactionResult) : Except Fault (Option Mismatch) :=
  match e.status.mismatch "status" r.status.code fun _ => .text (statusText r) with
  | some m => .ok (some m)
  | none => r.message.textBytes.map fun message => e.laterMismatch r message

/-- The mismatch of a transaction that was expected to succeed. -/
def successMismatch (r : TransactionResult) : Option Mismatch :=
  if r.isSuccess then none else some ⟨"status", .int 0, .text (statusText r)⟩

end TrialLedger.Check
