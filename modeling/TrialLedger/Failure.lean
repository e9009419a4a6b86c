import TrialLedger.Value

/-! Contract-level failures. A failure ends the frame in which it arises: what the
frame did is undone, and the caller learns a status and a message. Contract code may put a value
of any type in the place of a message. -/

namespace TrialLedger

/-- Why a frame failed. Contract code may signal any status with any message. -/
inductive Failure where
  | signalled (status : Status) (message : Value)
  | cardinality
  | fungibility
  | argumentCount
  | outOfGas
  | insufficientFunds
  | functionNotFound
  | callDepthExceeded

namespace Failure

def status : Failure → Status
  | signalled status _ => status
  | cardinality | fungibility | argumentCount => .userError
  | outOfGas => .outOfGas
  | insufficientFunds => .outOfFunds
  | functionNotFound => .functionNotFound
  | callDepthExceeded => .callStackOverflow

def message : Failure → Value
  | signalled _ message => message
  | cardinality => .text "incorrect number of DCT transfers"
  | fungibility => .text "fungible DCT token expected"
  | argumentCount => .text "wrong number of arguments"
  | outOfGas => .text "not enough gas"
  | insufficientFunds => .text "insufficient funds"
  | functionNotFound => .text "invalid function (not found)"
  | callDepthExceeded => .text "max call depth exceeded"

/-- The name under which a failure is shown. -/
def label : Failure → String
  | signalled .. => "ExecutionFailure"
  | cardinality => "CardinalityError"
  | fungibility => "FungibilityError"
  | argumentCount => "ArgumentCountError"
  | outOfGas => "OutOfGasError"
  | insufficientFunds => "InsufficientFundsError"
  | functionNotFound => "FunctionNotFoundError"
  | callDepthExceeded => "CallDepthExceededError"

def shown (f : Failure) : String :=
  f.label ++ "(status=" ++ toString f.status.code ++ ", message=" ++ f.message.shown ++ ")"

/-- A failure that contract code signals with a message alone. -/
def user (message : String) : Failure := .signalled .userError (.text message)

def dctExpected : Failure := user "DCT expected"

def nativeNotAccepted : Failure := user "function does not accept MOAX payment"

def dctNotAccepted : Failure := user "function does not accept DCT payment"

def asyncDepthExceeded : Failure := user "async call depth exceeded"

def codeNotFound (code : Text) : Failure :=
  .signalled .contractInvalid (.text ("contract code " ++ code.quoted ++ " not found"))

end Failure

/-- Outcome of a call that its caller chose to hear of. -/
structure CallResult where
  status : Status
  message : Value
  data : List Bytes

namespace CallResult

def ok (data : List Bytes) : CallResult := ⟨.ok, .text "", data⟩

def failed (f : Failure) : CallResult := ⟨f.status, f.message, []⟩

def isSuccess (r : CallResult) : Bool := r.status = .ok

def value (r : CallResult) : Value := .result r.status r.message r.data

end CallResult

namespace Token

/-- The identifier of an issued token; the native coin has none. -/
def requireIssued : Token → Except Failure Bytes
  | native => .error .dctExpected
  | issued id => .ok id

end Token

end TrialLedger
