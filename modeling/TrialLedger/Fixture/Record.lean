import TrialLedger.Fixture.Shape

/-! The records of a scenario. Their literals are left as they are written. Some members
have a second spelling, and unknown members are refused in every record. -/

namespace TrialLedger.Fixture

structure TransferRecord where
  token : Json
  nonce : Json
  amount : Json
  /-- An older spelling of the amount. -/
  value : Json

def TransferRecord.model : String := "TxDctRaw"

def TransferRecord.shape : Shape TransferRecord :=
  TransferRecord.mk <$> .required ["tokenIdentifier", "token_identifier"] anyValue <*> .literal ["nonce"] <*>
    .literal ["amount"] <*> .literal ["value"]

def TransferRecord.ofJson : Json → Checked TransferRecord := shape.record model

structure CallRecord where
  sender : Json
  receiver : Json
  /-- The oldest spelling of the native amount. -/
  value : Json
  moaxValue : Json
  nativeAmount : Json
  transfers : List TransferRecord
  function : Text
  arguments : List Json
  gasLimit : Json
  gasPrice : Json

def CallRecord.model : String := "TxCallRaw"

def CallRecord.shape : Shape CallRecord :=
  CallRecord.mk <$> .required ["from", "from_"] anyValue <*> .required ["to"] anyValue <*> .literal ["value"] <*>
    .literal ["moaxValue", "moax_value"] <*> .literal ["nativeAmount", "native_amount"] <*>
    .optional ["dctValue", "dct_value"] [] (listValue TransferRecord.ofJson) <*> .optional ["function"] "" textValue <*>
    .optional ["arguments"] [] (listValue anyValue) <*> .literal ["gasLimit", "gas_limit"] <*>
    .literal ["gasPrice", "gas_price"]

def CallRecord.ofJson : Json → Checked CallRecord := shape.record model

structure LogRecord where
  address : Json
  endpoint : Json
  topics : Json
  data : Json

def LogRecord.model : String := "CheckLogRaw"

def LogRecord.shape : Shape LogRecord :=
  LogRecord.mk <$> .literal ["address"] <*> .literal ["endpoint"] <*> .literal ["topics"] <*> .literal ["data"]

def LogRecord.ofJson : Json → Checked LogRecord := shape.record model

structure ExpectationRecord where
  out : Json
  status : Json
  message : Json
  logs : Json
  gas : Json
  /-- Allowed, and not checked. -/
  refund : Json

def ExpectationRecord.model : String := "TxExpectRaw"

def ExpectationRecord.shape : Shape ExpectationRecord :=
  ExpectationRecord.mk <$> .literal ["out"] <*> .literal ["status"] <*> .literal ["message"] <*> .literal ["logs"] <*>
    .literal ["gas"] <*> .literal ["refund"]

def ExpectationRecord.ofJson : Json → Checked ExpectationRecord := shape.record model

structure AccountRecord where
  comment : Option Text
  nonce : Json
  balance : Json
  dct : Json
  storage : Json
  code : Json
  owner : Json

def AccountRecord.model : String := "AccountRaw"

def AccountRecord.shape : Shape AccountRecord :=
  AccountRecord.mk <$> .remark ["comment"] <*> .literal ["nonce"] <*> .literal ["balance"] <*> .literal ["dct"] <*>
    .literal ["storage"] <*> .literal ["code"] <*> .literal ["owner"]

def AccountRecord.ofJson : Json → Checked AccountRecord := shape.record model

/-! ### Steps -/

structure AccountsRecord where
  comment : Option Text
  accounts : List (Text × AccountRecord)

/-- How a transaction step runs. A transfer step is a call that has to succeed and calls no
function. -/
inductive TransactionKind where
  | call
  | query
  | transfer
  deriving DecidableEq, Repr

def TransactionKind.name : TransactionKind → String
  | call => "scCall"
  | query => "scQuery"
  | transfer => "transfer"

structure TransactionRecord where
  id : Text
  comment : Option Text
  displayLogs : Option Bool
  call : CallRecord
  expectation : Option ExpectationRecord

structure CheckRecord where
  id : Text
  comment : Option Text
  accounts : List (Text × Json)

inductive StepRecord where
  | setState (r : AccountsRecord)
  | transaction (kind : TransactionKind) (r : TransactionRecord)
  | checkState (r : CheckRecord)

/-- The member that tells the kind of a step. -/
def kindMember : Shape Json := .optional ["step"] .null anyValue

def AccountsRecord.shape : Shape AccountsRecord :=
  kindMember *> (AccountsRecord.mk <$> .remark ["comment"] <*>
    .optional ["accounts"] [] (mapValue AccountRecord.ofJson))

def TransactionRecord.shape : Shape TransactionRecord :=
  kindMember *> (TransactionRecord.mk <$> .optional ["id", "txId"] "" textValue <*> .remark ["comment"] <*>
    .optional ["displayLogs", "display_logs"] none (nullable flagValue) <*> .required ["tx"] CallRecord.ofJson <*>
    .optional ["expect"] none (nullable ExpectationRecord.ofJson))

def CheckRecord.shape : Shape CheckRecord :=
  kindMember *> (CheckRecord.mk <$> .optional ["id"] "" textValue <*> .remark ["comment"] <*>
    .optional ["accounts"] [] (mapValue anyValue))

/-- The kinds of steps, each with the reading of its record. -/
def stepKinds : List (String × (List (Text × Json) → Checked StepRecord)) := [
  ("setState", fun ms => .setState <$> AccountsRecord.shape.ofMembers ms),
  (TransactionKind.call.name, fun ms => .transaction .call <$> TransactionRecord.shape.ofMembers ms),
  (TransactionKind.query.name, fun ms => .transaction .query <$> TransactionRecord.shape.ofMembers ms),
  (TransactionKind.transfer.name, fun ms => .transaction .transfer <$> TransactionRecord.shape.ofMembers ms),
  ("checkState", fun ms => .checkState <$> CheckRecord.shape.ofMembers ms)]

def StepRecord.ofJson : Json → Checked StepRecord
  | .object members =>
    match Json.member? members "step" with
    | none => .issue (.noTag "step")
    | some (.text (.plain tag)) =>
      match stepKinds.lookup tag with
      | some read => (read members).under tag
      | none => .issue (.unknownTag "step" tag (stepKinds.map Prod.fst))
    | some j => .issue (.unknownTag "step" j.display.lossy (stepKinds.map Prod.fst))
  | _ => .issue .notObject

structure ScenarioRecord where
  name : Text
  comment : Option Text
  gasSchedule : Option Text
  steps : List StepRecord

def ScenarioRecord.model : String := "ScenarioRaw"

def ScenarioRecord.shape : Shape ScenarioRecord :=
  ScenarioRecord.mk <$> .optional ["name"] "" textValue <*> .remark ["comment"] <*>
    .remark ["gasSchedule", "gas_schedule"] <*> .optional ["steps"] [] (listValue StepRecord.ofJson)

def ScenarioRecord.ofJson : Json → Checked ScenarioRecord := shape.record model

end TrialLedger.Fixture
