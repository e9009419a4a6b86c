/-! Statuses: how a call ended, and the number under which that is reported. -/

namespace TrialLedger

/-- How a call ended. -/
inductive Status where
  | ok
  | functionNotFound
  | functionWrongSignature
  | contractNotFound
  | userError
  | outOfGas
  | accountCollision
  | outOfFunds
  | callStackOverflow
  | contractInvalid
  | executionFailed
  deriving DecidableEq, Repr, Inhabited

namespace Status

def all : List Status := [.ok, .functionNotFound, .functionWrongSignature, .contractNotFound, .userError,
  .outOfGas, .accountCollision, .outOfFunds, .callStackOverflow, .contractInvalid, .executionFailed]

/-- The number under which a status is reported. -/
def code : Status → Nat
  | ok => 0
  | functionNotFound => 1
  | functionWrongSignature => 2
  | contractNotFound => 3
  | userError => 4
  | outOfGas => 5
  | accountCollision => 6
  | outOfFunds => 7
  | callStackOverflow => 8
  | contractInvalid => 9
  | executionFailed => 10

/-- The word that texts use for a status. -/
def word : Status → String
  | ok => "OK"
  | functionNotFound => "FUNCTION_NOT_FOUND"
  | functionWrongSignature => "FUNCTION_WRONG_SIGNATURE"
  | contractNotFound => "CONTRACT_NOT_FOUND"
  | userError => "USER_ERROR"
  | outOfGas => "OUT_OF_GAS"
  | accountCollision => "ACCOUNT_COLLISION"
  | outOfFunds => "OUT_OF_FUNDS"
  | callStackOverflow => "CALL_STACK_OVERFLOW"
  | contractInvalid => "CONTRACT_INVALID"
  | executionFailed => "EXECUTION_FAILED"

def shown (s : Status) : String := "<ReturnCode." ++ s.word ++ ": " ++ toString s.code ++ ">"

def ofCode? (n : Int) : Option Status := all.find? fun s => (s.code : Int) = n

/-- What is said of something that is no status. -/
def unknownCode (shown : String) : String := shown ++ " is not a valid ReturnCode"

end Status

end TrialLedger
