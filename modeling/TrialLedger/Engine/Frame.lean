import TrialLedger.Contract
import TrialLedger.Engine.Request
import TrialLedger.Journal
import TrialLedger.Settings
import TrialLedger.Gas
import TrialLedger.Value.Compare

/-! One frame of a transaction. A frame resolves its endpoint, pays its entry cost,
moves its value and runs its program. When it fails it leaves the world as it found it,
and its logs and deferred calls are dropped; otherwise its caller takes them over. -/

namespace TrialLedger

/-- What an engine is set up with. -/
structure Host where
  registry : Registry
  settings : Settings

/-- What all frames of a transaction share. The newest event and the innermost call come first. -/
structure Stage where
  world : World
  stack : List Call
  journal : List Event

/-- What stays fixed while a frame runs. -/
structure Frame where
  call : Call
  /-- What its meter holds when it is entered. -/
  budget : Amount
  asyncDepth : Nat
  asyncResult : Option CallResult

/-- What changes while a frame runs. -/
structure Running where
  gas : Meter
  payments : CallValue
  logs : List Log
  queued : List AsyncCall
  stage : Stage

/-- What a successful frame hands to its caller. -/
structure Committed where
  data : List Bytes
  logs : List Log
  queued : List AsyncCall

/-- How a frame ended, and what is left of its gas. -/
structure Exit where
  outcome : Except Stop Committed
  gas : Meter
  stage : Stage

/-- Runs one call as a frame. Its value may have been moved before, and a callback is given the
outcome that it answers. -/
abbrev Launch : Type := Frame → (movesValue : Bool) → Stage → Exit

namespace Frame

/-! ### Steps on the parts of a running frame -/

def note (e : Event) : Action Running Unit :=
  Action.modify fun s => { s with stage := { s.stage with journal := e :: s.stage.journal } }

def onGas {α : Type} (x : Action Meter α) : Action Running α :=
  Action.zoom Running.gas (fun s g => { s with gas := g }) x

def onPayments {α : Type} (x : Action CallValue α) : Action Running α :=
  Action.zoom Running.payments (fun s p => { s with payments := p }) x

def onWorld {α : Type} (x : Action World α) : Action Running α :=
  Action.zoom (fun s => s.stage.world) (fun s w => { s with stage := { s.stage with world := w } }) x

def pureFault {α : Type} (r : Except Fault α) : Action Running α := Action.ofExcept (r.mapError .fault)

/-- A value as an amount of gas, which is what it has to be to be compared with what is left. -/
def gasAmount (v : Value) : Action Running Amount := do
  match Amount.ofValue? v with
  | some a => pure a
  | none => Action.fault (Value.unordered ">" v (← Action.get).gas.remaining.value)

def charge (amount : Amount) : Action Running Unit := do
  note (.charged ((← Action.get).gas.taken amount))
  onGas (Meter.charge amount)

def reserve (amount : Amount) : Action Running Unit := do
  let _ ← onGas (Meter.reserve (some amount))
  note (.reserved amount)

/-- Takes back what is left of a meter. -/
def refund (child : Meter) : Action Running Unit := do
  onGas (Meter.refund child)
  note (.refunded child.remaining)

def encode (v : Value) : Action Running Bytes :=
  Action.ofExcept ((Codec.encode v).mapError fun e => .fault (.unencodable e))

def encodeAll (vs : List Value) : Action Running (List Bytes) :=
  Action.ofExcept ((Codec.encodeAll vs).mapError fun e => .fault (.unencodable e))

def encodeItems (v : Value) : Action Running (List Bytes) := do encodeAll (← pureFault v.items)

/-! ### Nested calls -/

/-- The call that a request describes. What is wrong with it is a failure of the frame that
makes the request. -/
def build (f : Frame) (r : CallRequest) (budget : Value) (kind : CallKind) : Action Running Call := do
  let transfers ← pureFault r.transfers.items
  let arguments ← encodeItems r.arguments
  Action.ofExcept ((r.call f.call transfers arguments budget kind).mapError fun issues =>
    .failure (.user (Issue.firstMessage issues)))

/-- Builds the requested call and sets its gas aside, of which the answer tells the amount. -/
def prepare (f : Frame) (r : CallRequest) (kind : CallKind) : Action Running (Call × Amount) := do
  let left := (← Action.get).gas.remaining
  let budget := match r.gas with
    | .nothing => left.value
    | gas => gas
  let c ← build f r budget kind
  let amount ← gasAmount budget
  reserve amount
  return (c, amount)

/-- Runs a prepared call. What is left of its gas comes back in any case; its logs and deferred
calls are taken over when it succeeds. -/
def runChild (launch : Launch) (f : Frame) (c : Call) (budget : Amount) (movesValue : Bool) :
    Action Running (List Bytes) := do
  let s ← Action.get
  let exit := launch ⟨c, budget, f.asyncDepth, none⟩ movesValue s.stage
  Action.modify fun s => { s with stage := exit.stage }
  refund exit.gas
  match exit.outcome with
  | .ok done =>
    Action.modify fun s => { s with logs := s.logs ++ done.logs, queued := s.queued ++ done.queued }
    return done.data
  | .error e => Action.stop e

/-- Reports a failure of the action, unless the report itself goes wrong; a fault goes on. -/
def report (x : Action Running (List Bytes)) (check : Except Fault Unit) : Action Running CallResult := do
  match ← Action.attempt x with
  | .ok data => return .ok data
  | .error (.failure e) => do
    pureFault check
    return .failed e
  | .error (.fault e) => Action.fault e

/-- Moves the value of a prepared call in the frame that makes it. When a transfer fails, the
ones before it stay moved and the gas comes back. -/
def moveAhead (c : Call) (budget : Amount) : Action Running Unit := do
  match ← Action.attempt (onWorld (World.moveValue c)) with
  | .ok () => pure ()
  | .error (.failure e) =>
    refund (Meter.full budget)
    Action.fail e
  | .error (.fault e) => Action.fault e

def makeCall (launch : Launch) (f : Frame) (r : CallRequest) :
    (mode : CallMode) → Action Running (Request.call mode r).Answer
  | .propagate => do
    let (c, budget) ← prepare f r .sync
    runChild launch f c budget true
  | .report => do
    let (c, budget) ← prepare f r .sync
    report (runChild launch f c budget true) (.ok ())
  | .keepValue => do
    let (c, budget) ← prepare f r .transferExecute
    moveAhead c budget
    if c.function.isEmpty then
      refund (Meter.full budget)
      return .ok []
    else report (runChild launch f c budget false) r.checkReceiver

/-- Queues a call. Frames at the greatest asynchronous depth may not queue any. Whether the receiver
can be reported is looked at when the call has been queued. -/
def callAsync (host : Host) (f : Frame) (r : CallRequest) (callback callbackArguments : Value) :
    Action Running Unit := do
  if host.settings.maxAsyncDepth ≤ f.asyncDepth then Action.fail .asyncDepthExceeded
  let (c, budget) ← prepare f r .async
  let arguments ← encodeItems callbackArguments
  let a : AsyncCall := ⟨c, budget, f.asyncDepth + 1, callback, arguments⟩
  Action.modify fun s => { s with queued := s.queued ++ [a] }
  note (.queued a)
  pureFault r.checkReceiver

/-! ### Requests -/

/-- A write is paid for before its key and its value are looked at. -/
def storageSet (host : Host) (f : Frame) (key value : Value) : Action Running Unit := do
  charge host.settings.storageWriteCost
  let key ← pureFault key.key
  let data ← encode value
  onWorld (Action.modify fun w => w.storageSet f.call.receiver key data)
  note (.stored key)

def log (host : Host) (f : Frame) (endpoint topics data : Value) : Action Running Unit := do
  charge host.settings.logCost
  let endpoint ← pureFault endpoint.key
  let topics ← encodeItems topics
  let data ← encode data
  let l : Log := ⟨f.call.receiver, endpoint, topics, data⟩
  Action.modify fun s => { s with logs := s.logs ++ [l] }
  note (.logged l)

def world : Action Running World := do return (← Action.get).stage.world

def storageGet (f : Frame) (key : Value) : Action Running Bytes := do
  let key ← pureFault key.key
  return (← world).storageGet f.call.receiver key

/-- The balance of an account, zero where there is none. -/
def balance (address : Value) (token : Token) (nonce : Value) : Action Running Amount := do
  match token, ← pureFault ((← world).find? (.ofValue address)) with
  | _, none => return 0
  | .native, some a => return a.balance
  | .issued id, some a => return a.held id (← pureFault (Key.ofValue nonce))

/-- The owner of an account; what is false stands for the contract itself. -/
def owner (f : Frame) (address : Value) : Action Running (Option Bytes) := do
  let place := if address.isTrue then Place.ofValue address else f.call.receiver
  return (← pureFault ((← world).find? place)).bind Account.owner

/-- What the frame's account holds of a token. -/
def held (f : Frame) (token : Token) (nonce : Key) : Action Running Amount := do
  let w ← world
  return match token with
    | .native => w.balance f.call.receiver
    | .issued id => w.dctBalance f.call.receiver id nonce

/-- Sends an amount; none is sent of nothing, whatever the other members are. -/
def send (f : Frame) (receiver : Value) (token : Token) (nonce amount : Value) : Action Running Unit := do
  if amount.isZero then return ()
  let nonce ← if token.isNative then pure (Nonce.ofInt 0) else pureFault (Nonce.ofValue nonce)
  match Amount.ofValue? amount with
  | some a => onWorld (World.transfer f.call.receiver (.ofValue receiver) token nonce a)
  | none => Action.fault (Value.unordered "<" (← held f token nonce.key).value amount)

/-- Answers a request of the program that the frame runs. -/
def answer (host : Host) (launch : Launch) (f : Frame) : (r : Request) → Action Running r.Answer
  | .gasLeft => do return (← Action.get).gas.remaining
  | .balance address token nonce => balance address token nonce
  | .owner address => owner f address
  | .payment query => onPayments (CallValue.answer query)
  | .storageGet key => storageGet f key
  | .storageSet key value => storageSet host f key value
  | .send receiver token nonce amount => send f receiver token nonce amount
  | .log endpoint topics data => log host f endpoint topics data
  | .call mode r => makeCall launch f r mode
  | .callAsync r callback callbackArguments => callAsync host f r callback callbackArguments
  | .reenter => Action.fault .engineBusy

/-- Runs a program to its end. -/
def run (host : Host) (launch : Launch) (f : Frame) : Program Value → Action Running Value
  | .done v => pure v
  | .stop e => Action.stop e
  | .ask r next => fun s =>
    let (a, s) := answer host launch f r s
    run host launch f (next a) s

/-! ### The life of a frame -/

/-- The endpoint that a call runs, none for a plain transfer of value. Callbacks answer to
callback calls and nothing else does. -/
def resolve (host : Host) (c : Call) (w : World) : Except Failure (Option Endpoint) :=
  match (w.account? c.receiver).bind Account.code with
  | none => .ok none
  | some code =>
    if c.function.isEmpty then .ok none
    else match host.registry.get? code with
      | none => .error (.codeNotFound code)
      | some contract =>
        match contract.find? c.function with
        | none => .error .functionNotFound
        | some e =>
          if e.isCallback = decide (c.kind = .asyncCallback) then .ok (some e) else .error .functionNotFound

/-- The cost of entering a frame. -/
def entryCost (host : Host) (e : Option Endpoint) : Value :=
  (e.bind Endpoint.gasCost).getD (.int host.settings.frameCost)

def runEndpoint (host : Host) (launch : Launch) (f : Frame) (e : Endpoint) : Action Running (List Bytes) := do
  if e.isBounded && !e.accepts f.call.arguments.length then Action.fail .argumentCount
  note .started
  let v ← run host launch f (e.body ⟨f.call, f.asyncResult⟩)
  Action.ofExcept ((Codec.encodeResults v).mapError fun e => .fault (.unencodable e))

def body (host : Host) (launch : Launch) (f : Frame) (movesValue : Bool) : Action Running (List Bytes) := do
  let e ← Action.ofExcept ((resolve host f.call (← world)).mapError .failure)
  charge (← gasAmount (entryCost host e))
  if movesValue then onWorld (World.moveValue f.call)
  match e with
  | none => return []
  | some e => runEndpoint host launch f e

/-- A frame as it is when it is entered. Its function names it in messages, where no ragged one is
met: no endpoint has such a name. -/
def entered (f : Frame) (stage : Stage) : Running where
  gas := Meter.full f.budget
  payments := CallValue.enter f.call (if f.call.function.isEmpty then "transfer" else f.call.function.lossy)
  logs := []
  queued := []
  stage := {
    world := stage.world
    stack := f.call :: stage.stack
    journal := .entered f.call f.budget stage.stack.length f.asyncDepth :: stage.journal }

/-- Runs a body as a frame and undoes it when it stops. -/
def launchBody (body : Frame → Bool → Action Running (List Bytes)) : Launch := fun f movesValue stage =>
  let (r, s) := body f movesValue (f.entered stage)
  match r with
  | .ok data => {
      outcome := .ok ⟨data, s.logs, s.queued⟩
      gas := s.gas
      stage := {
        world := s.stage.world
        stack := stage.stack
        journal := .left true s.gas.remaining :: s.stage.journal } }
  | .error e => {
      outcome := .error e
      gas := s.gas
      stage := {
        world := stage.world
        stack := stage.stack
        journal := .left false s.gas.remaining :: s.stage.journal } }

/-- Runs a frame under which at most `room - 1` further frames may be nested. Without room the
frame is refused. -/
def launch (host : Host) : (room : Nat) → Launch
  | 0 => launchBody fun _ _ => Action.fail .callDepthExceeded
  | room + 1 => launchBody fun f movesValue => body host (launch host room) f movesValue

end Frame

end TrialLedger
