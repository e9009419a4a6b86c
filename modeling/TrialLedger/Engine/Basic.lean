import TrialLedger.Engine.Frame
import TrialLedger.Value.Member

/-! Whole transactions. A transaction runs its own call first. When that succeeds, the
deferred calls run one at a time in the order in which they were queued, each followed
by its callback, and calls that are queued meanwhile come after all others. -/

namespace TrialLedger

/-- Outcome of a deferred call and of its callback. -/
structure AsyncRecord where
  destination : Bytes
  function : Text
  result : CallResult
  callback : Value
  callbackResult : Option CallResult

structure TransactionResult where
  status : Status
  message : Value
  data : List Bytes
  logs : List Log
  gasRemaining : Amount
  gasUsed : Amount
  asyncCalls : List AsyncRecord

namespace TransactionResult

/-- A failed transaction uses up its whole gas limit. -/
def failed (f : Failure) (gasLimit : Nat) : TransactionResult :=
  ⟨f.status, f.message, [], [], 0, gasLimit, []⟩

def isSuccess (r : TransactionResult) : Bool := r.status = .ok

def summary (r : TransactionResult) : String :=
  if r.isSuccess then
    "OK: " ++ toString r.data.length ++ " results, " ++ toString r.logs.length ++ " logs, gas used " ++
      r.gasUsed.text
  else "FAILED (" ++ toString r.status.code ++ "): " ++ r.message.display

end TransactionResult

/-- A transaction whose own call has succeeded. -/
structure Drain where
  stage : Stage
  backlog : List AsyncCall
  meter : Meter
  logs : List Log
  records : List AsyncRecord

namespace Drain

/-- Runs a frame and keeps its logs and deferred calls when it succeeds. -/
def runFrame (launch : Launch) (f : Frame) : Action Drain (CallResult × Meter) := fun d =>
  let exit := launch f true d.stage
  let d := { d with stage := exit.stage }
  match exit.outcome with
  | .ok done =>
    (.ok (.ok done.data, exit.gas), { d with logs := d.logs ++ done.logs, backlog := d.backlog ++ done.queued })
  | .error (.failure e) => (.ok (.failed e, exit.gas), d)
  | .error (.fault e) => (.error (.fault e), d)

/-- What a callback is told of an outcome: the data, or the bytes of the message. -/
def payload (r : CallResult) : Except Fault (List Bytes) :=
  if r.isSuccess then .ok r.data else r.message.textBytes.map ([·])

/-- The call that delivers an outcome to the contract that asked for it. It is given the status,
the data or the message, and the arguments set when the call was queued. -/
def callbackCall (a : AsyncCall) (result : CallResult) (gas : Amount) : Except Stop Call := do
  let told ← (payload result).mapError .fault
  let request : CallRequest := { receiver := .bytes a.call.sender, function := a.callback }
  let arguments := Codec.encodeNat result.status.code :: told ++ a.callbackArguments
  (request.call a.call [] arguments gas.value .asyncCallback).mapError fun issues =>
    .failure (.user (Issue.firstMessage issues))

/-- Whether a deferred call names a callback; an empty name counts as none. -/
def hasCallback (a : AsyncCall) : Bool := a.callback.isTrue

/-- Runs a deferred call and its callback. The callback runs on the gas that the call left over,
and what is left in the end goes back to the transaction. -/
def runAsync (launch : Launch) (a : AsyncCall) : Action Drain Unit := do
  let (result, gas) ← runFrame launch ⟨a.call, a.budget, a.asyncDepth, none⟩
  let (callbackResult, left) ←
    if hasCallback a then do
      let c ← Action.ofExcept (callbackCall a result gas.remaining)
      let (r, gas) ← runFrame launch ⟨c, gas.remaining, a.asyncDepth, some result⟩
      pure (some r, gas.remaining)
    else pure (none, gas.remaining)
  Action.zoom Drain.meter (fun d m => { d with meter := m }) (Meter.refund (Meter.full left))
  Action.modify fun d => { d with
    records := d.records ++ [⟨a.call.receiver, a.call.function, result, a.callback, callbackResult⟩] }

/-- Runs the calls of one round, which stand at the front of the backlog. -/
def runRound (launch : Launch) : List AsyncCall → Action Drain Unit
  | [] => pure ()
  | a :: r => do
    Action.modify fun d => { d with backlog := d.backlog.drop 1 }
    runAsync launch a
    runRound launch r

/-- The result of a transaction whose deferred calls have run. -/
def result (d : Drain) (data : List Bytes) : Except Stop TransactionResult := do
  let used ← d.meter.used.mapError .fault
  return ⟨.ok, .text "", data, d.logs, d.meter.remaining, used, d.records⟩

/-- Runs rounds until nothing is left to do. The calls of a round are those that the round before
it queued, so they lie one asynchronous level deeper. -/
def run (launch : Launch) : (rounds : Nat) → Action Drain Unit
  | 0 => pure ()
  | rounds + 1 => do
    let d ← Action.get
    if d.backlog.isEmpty then pure ()
    else do
      runRound launch d.backlog
      run launch rounds

end Drain

/-- An engine between two transactions, or in the middle of one when calls are active. -/
structure Engine where
  host : Host
  world : World := {}
  /-- Calls whose frames have not ended, innermost first. -/
  active : List Call := []
  /-- Deferred calls that have not run. -/
  backlog : List AsyncCall := []
  /-- The events of the last transaction, newest first. -/
  journal : List Event := []

namespace Engine

/-- How many frames may be on top of each other. -/
def room (e : Engine) : Nat := e.host.settings.maxCallDepth + 1

def launch (e : Engine) : Launch := Frame.launch e.host e.room

/-- The engine after a stage of its work. -/
def after (e : Engine) (stage : Stage) (backlog : List AsyncCall) : Engine :=
  { e with world := stage.world, active := stage.stack, journal := stage.journal, backlog := backlog }

/-- Runs one transaction with its deferred calls. A failure of its own call is a result; a fault
anywhere is not. -/
def execute (c : Call) : Action Engine TransactionResult := fun e =>
  if !e.active.isEmpty then (.error (.fault .engineBusy), e)
  else
    let exit := e.launch ⟨c, c.gasLimit, 0, none⟩ true ⟨e.world, e.active, []⟩
    match exit.outcome with
    | .error (.failure f) => (.ok (.failed f c.gasLimit), e.after exit.stage [])
    | .error (.fault f) => (.error (.fault f), e.after exit.stage [])
    | .ok done =>
      let (r, d) := Drain.run e.launch e.host.settings.maxAsyncDepth
        ⟨exit.stage, done.queued, exit.gas, done.logs, []⟩
      (do
        r
        d.result done.data,
        e.after d.stage d.backlog)

/-- Runs one transaction and puts the world back as it was. -/
def query (c : Call) : Action Engine TransactionResult := fun e =>
  let (r, e') := execute c e
  (r, { e' with world := e.world })

end Engine

end TrialLedger
