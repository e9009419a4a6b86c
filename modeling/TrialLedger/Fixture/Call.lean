import TrialLedger.Call
import TrialLedger.Fixture.Literal
import TrialLedger.Fixture.Record

/-! Calls and transfers of a fixture. An amount may stand under several spellings: the first
one that is present counts, and all that are present have to be readable. A strict context
wants them to agree as well. -/

namespace TrialLedger.Fixture

/-- The spellings that are present, of those that are given in order of precedence. -/
def present (spellings : List (String × Json)) : List (String × Json) := spellings.filter fun s => !s.2.isNull

/-- Refuses a spelling that says something else than the one that counts. Both are told, unless there
is a number in them that is too long to be written. -/
def conflicting (path : Text) (used : String) (ignored raw : Json) : Read Unit :=
  .error (if ignored.isWritable && raw.isWritable then .misread path (.conflict used ignored raw) else .unwritable)

/-- Reads the spellings after the one that counts. -/
def readIgnored (ctx : Context) (path : Text) (used : String) (raw : Json) (n : Nat) : List (String × Json) → Read Unit
  | [] => .ok ()
  | (name, j) :: r => do
    let m ← readAmount ctx (member path name) j
    if m ≠ n ∧ ctx.strict then conflicting (member path name) used j raw
    else readIgnored ctx path used raw n r

/-- The amount under the first of the spellings that is present, if one is. -/
def readSpelled (ctx : Context) (path : Text) (spellings : List (String × Json)) : Read (Option Nat) :=
  match present spellings with
  | [] => .ok none
  | (name, j) :: r => do
    let n ← readAmount ctx (member path name) j
    readIgnored ctx path name j n r
    return some n

def TransferRecord.spellings (r : TransferRecord) : List (String × Json) :=
  [("amount", r.amount), ("value", r.value)]

def CallRecord.spellings (r : CallRecord) : List (String × Json) :=
  [("nativeAmount", r.nativeAmount), ("moaxValue", r.moaxValue), ("value", r.value)]

def readTransfer (ctx : Context) (path : Text) (r : TransferRecord) : Read Transfer := do
  let token ← readBytes ctx (member path "tokenIdentifier") r.token
  let amount ← readSpelled ctx path r.spellings
  match amount with
  | none => misread path .noAmount
  | some amount =>
    let nonce ← readU64 ctx (member path "nonce") r.nonce
    return ⟨Token.parse token, nonce, amount⟩

def readGasLimit (ctx : Context) (path : Text) (j : Json) : Read Int :=
  if j.isNull then .ok ctx.defaultGasLimit else do return (← readU64 ctx path j : Nat)

/-- The call that a draft makes; a draft that is refused is reported by its first issue. -/
def completed (path : Text) (d : Call.Draft) : Read Call :=
  d.validate.mapError fun issues => .misread path (.badCall issues)

def readCall (ctx : Context) (path : Text) (txHash : Bytes) (r : CallRecord) : Read Call := do
  let native ← readSpelled ctx path r.spellings
  let transfers ← readItems (readTransfer ctx) (member path "dctValue") 0 r.transfers
  let arguments ← readItems (readBytes ctx) (member path "arguments") 0 r.arguments
  let gasLimit ← readGasLimit ctx (member path "gasLimit") r.gasLimit
  let sender ← readAddress ctx (member path "from") r.sender
  let receiver ← readAddress ctx (member path "to") r.receiver
  let gasPrice ← readU64 ctx (member path "gasPrice") r.gasPrice
  completed path {
    sender
    receiver
    native := native.getD 0
    transfers
    function := r.function
    arguments
    gasLimit
    gasPrice
    txHash
    kind := .direct }

end TrialLedger.Fixture
