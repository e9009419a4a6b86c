import TrialLedger.CallValue.Host
import TrialLedger.Value.Member

/-! Call value as contract code sees it. The native amount, the single amount and the
list of all transfers are fetched once each, into reserved handles that no allocation
ever uses. The composed accessors say what a contract expects to be paid with. -/

namespace TrialLedger

structure CallValue where
  call : Call
  handles : HandleTable
  nativeFetched : Bool := false
  allFetched : Bool := false
  singleFetched : Bool := false

namespace CallValue

def nativeHandle : Int := -10

def allHandle : Int := -11

def singleHandle : Int := -12

/-- The call value of a frame that was just entered. -/
def enter (c : Call) (owner : String) : CallValue := ⟨c, { owner }, false, false, false⟩

/-- An action on the handle table. -/
def onHandles {α : Type} (x : Action HandleTable α) : Action CallValue α :=
  Action.zoom handles (fun s h => { s with handles := h }) x

/-- An action of the host for the call at hand. -/
def ask {α : Type} (f : Call → Action HandleTable α) : Action CallValue α := fun s => onHandles (f s.call) s

def checkNotPayable : Action CallValue Unit := ask Host.checkNotPayable

/-! ### What is fetched once -/

/-- The content of the native handle. It counts as fetched as soon as the fetch begins. -/
def nativeValue : Action CallValue Value := do
  if !(← Action.get).nativeFetched then
    Action.modify fun s => { s with nativeFetched := true }
    ask fun c => Host.loadNative c (.number nativeHandle)
  onHandles (HandleTable.get nativeHandle)

/-- The content of the single handle: the amount of the only transfer, or zero. -/
def dctValue : Action CallValue Value := do
  if !(← Action.get).singleFetched then
    Action.modify fun s => { s with singleFetched := true }
    ask fun c => Host.loadSingle c (.number singleHandle)
  onHandles (HandleTable.get singleHandle)

/-- The rows under the handle of all transfers. -/
def allRows : Action CallValue Value := do
  if !(← Action.get).allFetched then
    Action.modify fun s => { s with allFetched := true }
    ask fun c => Host.loadAll c (.number allHandle)
  onHandles (HandleTable.get allHandle)

/-! ### Reading host values -/

def illTyped {α : Type} (v : Value) : Action CallValue α :=
  Action.fault (.illTyped ("unexpected host value " ++ v.shown))

def asInt : Value → Action CallValue Int
  | .int n => pure n
  | v => illTyped v

def asToken : Value → Action CallValue Token
  | .token t => pure t
  | v => illTyped v

def pureFault {α : Type} (r : Except Fault α) : Action CallValue α := Action.ofExcept (r.mapError .fault)

def makeTransfer (token nonce amount : Value) : Action CallValue Transfer :=
  pureFault ((Value.makeTransfer token nonce amount).mapError .invalidTransfer)

/-- The transfer that a row of handles describes: token and amount by their handles, and the nonce
itself. -/
def readRow (row : Value) : Action CallValue Transfer := do
  let (token, nonce, amount) ← pureFault row.three
  let token ← onHandles (HandleTable.loadAt token)
  let amount ← onHandles (HandleTable.loadAt amount)
  makeTransfer token nonce amount

def readRows : List Value → Action CallValue (List Transfer)
  | [] => pure []
  | row :: r => do
    let t ← readRow row
    return t :: (← readRows r)

/-! ### Accessors -/

/-- The native coin sent with the call. -/
def nativeAmount : Action CallValue Int := do asInt (← nativeValue)

/-- The amount of the only transfer, zero when there is none. -/
def dctAmount : Action CallValue Int := do asInt (← dctValue)

def token : Action CallValue Token := do
  match ← ask Host.token with
  | none => pure .native
  | some handle => asToken (← onHandles (HandleTable.get handle))

def tokenNonce : Action CallValue Nat := ask Host.tokenNonce

def tokenType : Action CallValue TokenType := ask Host.tokenType

def tokenTypeAt (index : Int) : Action CallValue TokenType := ask fun c => Host.tokenTypeAt c index

/-- All transfers of the call, in their order. -/
def transfers : Action CallValue (List Transfer) := do
  readRows (← pureFault (← allRows).items)

def transferCount : Action CallValue Nat := fun s => (.ok (Host.transferCount s.call), s)

def transferAt (index : Int) : Action CallValue (Token × Nat × Int) := do
  let token ← asToken (← onHandles (HandleTable.get (← ask fun c => Host.tokenAt c index)))
  let nonce ← ask fun c => Host.nonceAt c index
  let amount ← asInt (← onHandles (HandleTable.get (← ask fun c => Host.amountAt c index)))
  return (token, nonce, amount)

/-- All transfers, of which there have to be `count`. -/
def fixedCount (count : Int) : Action CallValue (List Transfer) := do
  let ts ← transfers
  if (ts.length : Int) ≠ count then Action.fail .cardinality else pure ts

/-- The only transfer. -/
def single : Action CallValue Transfer := do
  match ← fixedCount 1 with
  | [t] => pure t
  | _ => Action.fail .cardinality

def requireFungible (t : Transfer) : Action CallValue (Token × Nat) :=
  if t.isFungible then pure (t.token, t.amount) else Action.fail .fungibility

def singleFungible : Action CallValue (Token × Nat) := do requireFungible (← single)

/-- The native payment, which may be zero, or the only transfer. -/
def nativeOrSingle : Action CallValue Transfer := do
  match ← transfers with
  | [] => makeTransfer (.token .native) (.int 0) (← nativeValue)
  | [t] => pure t
  | _ => Action.fail .cardinality

def nativeOrSingleFungible : Action CallValue (Token × Nat) := do requireFungible (← nativeOrSingle)

/-! ### Queries as data -/

/-- The accessors, for programs that ask for them. -/
inductive Query where
  | checkNotPayable
  | nativeAmount
  | dctAmount
  | token
  | tokenNonce
  | tokenType
  | tokenTypeAt (index : Int)
  | transfers
  | transferCount
  | transferAt (index : Int)
  | fixedCount (count : Int)
  | single
  | singleFungible
  | nativeOrSingle
  | nativeOrSingleFungible
  deriving DecidableEq, Repr

@[reducible] def Query.Answer : Query → Type
  | checkNotPayable => Unit
  | nativeAmount | dctAmount => Int
  | token => Token
  | tokenNonce | transferCount => Nat
  | tokenType | tokenTypeAt _ => TokenType
  | transfers | fixedCount _ => List Transfer
  | transferAt _ => Token × Nat × Int
  | single | nativeOrSingle => Transfer
  | singleFungible | nativeOrSingleFungible => Token × Nat

def answer : (q : Query) → Action CallValue q.Answer
  | .checkNotPayable => checkNotPayable
  | .nativeAmount => nativeAmount
  | .dctAmount => dctAmount
  | .token => token
  | .tokenNonce => tokenNonce
  | .tokenType => tokenType
  | .tokenTypeAt i => tokenTypeAt i
  | .transfers => transfers
  | .transferCount => transferCount
  | .transferAt i => transferAt i
  | .fixedCount n => fixedCount n
  | .single => single
  | .singleFungible => singleFungible
  | .nativeOrSingle => nativeOrSingle
  | .nativeOrSingleFungible => nativeOrSingleFungible

end CallValue

end TrialLedger
