import TrialLedger.Amount

/-! What happens in a transaction, in the order in which it happens. A journal is never
taken back: events of a frame that is undone stay in it, and the end of the frame tells
what became of them. -/

namespace TrialLedger

/-- An entry that contract code emits. -/
structure Log where
  address : Bytes
  endpoint : Bytes
  topics : List Bytes
  data : Bytes
  deriving DecidableEq, Repr

/-- A deferred call. Its budget is set aside when it is queued. What is given for the name of its
callback is looked at only when the callback is due. -/
structure AsyncCall where
  call : Call
  budget : Amount
  asyncDepth : Nat
  callback : Value
  callbackArguments : List Bytes

inductive Event where
  /-- A frame begins, on a meter that holds its budget. -/
  | entered (call : Call) (budget : Amount) (depth asyncDepth : Nat)
  /-- The code of the frame's endpoint begins to run. -/
  | started
  | charged (amount : Amount)
  | reserved (amount : Amount)
  | refunded (amount : Amount)
  | stored (key : Bytes)
  | logged (log : Log)
  | queued (call : AsyncCall)
  /-- The frame that began last and has not ended yet ends. -/
  | left (committed : Bool) (remaining : Amount)

end TrialLedger
