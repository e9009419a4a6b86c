import TrialLedger.Contract

/-! A contract that passes on what it is paid, through every kind of nested call. -/

namespace TrialLedger.Contracts.Forwarder

def set (key : String) (v : Value) : Program Unit := Program.request (.storageSet (.text key) v)

def log (endpoint : String) (topics : List Value) (data : Value) : Program Unit :=
  Program.request (.log (.text endpoint) (.list topics) data)

/-- The payments of the call: native coin and transfers. -/
def payment : Program (Int × List Transfer) := do
  let ts ← Program.request (.payment .transfers)
  return (← Program.request (.payment .nativeAmount), ts)

/-- A function name given as an argument. -/
def decode (b : Bytes) : Program String :=
  match Utf8.decode b with
  | .ok s => pure s
  | .error place => Program.fault (.invalidText b place)

def bytesList (bs : List Bytes) : List Value := bs.map .bytes

def statusValue (r : CallResult) : Value := .int r.status.code

def transferList (ts : List Transfer) : Value := .list (ts.map .transfer)

/-- A request that passes on the payments of the call. -/
def passOn (receiver function : Bytes) (arguments : List Bytes) (native : Int) (ts : List Transfer) :
    Program CallRequest := do
  let function ← decode function
  return {
    receiver := .bytes receiver
    function := .text function
    arguments := .list (bytesList arguments)
    native := .int native
    transfers := transferList ts }

def forwardSync (target function : Bytes) (arguments : List Bytes) : Program Value := do
  let (native, ts) ← payment
  set "before_call" (.text "yes")
  let data ← Program.request (.call .propagate (← passOn target function arguments native ts))
  return .list (bytesList data)

def forwardSyncTry (target function : Bytes) (arguments : List Bytes) : Program Value := do
  let (native, ts) ← payment
  let r ← Program.request (.call .report (← passOn target function arguments native ts))
  set "last_status" (statusValue r)
  log "try_result" [statusValue r] r.message
  return statusValue r

def forwardTransferExecute (target function : Bytes) (arguments : List Bytes) : Program Value := do
  let (native, ts) ← payment
  let r ← Program.request (.call .keepValue (← passOn target function arguments native ts))
  set "last_status" (statusValue r)
  return statusValue r

/-- Tries a call on a given amount of gas, and notes why it could not be made. -/
def forwardSyncTryGas (target function gasRaw : Bytes) : Program Value := do
  let attempt : Program (Option CallResult) := do
    let function ← decode function
    let r ← Program.request (.call .report
      { receiver := .bytes target, function := .text function, gas := .int (Codec.decodeUnsigned gasRaw) })
    return some r
  let r ← attempt.orElse fun e => do
    set "rejected" e.message
    return none
  match r with
  | some r => set "last_status" (statusValue r)
  | none => pure ()
  return .nothing

/-- Asks for a payment in both kinds at once, and notes why it was refused. -/
def forwardMixed (target nativeRaw : Bytes) : Program Value := do
  let ts ← Program.request (.payment .transfers)
  let attempt : Program Unit := do
    let _ ← Program.request (.call .keepValue
      { receiver := .bytes target, native := .int (Codec.decodeUnsigned nativeRaw), transfers := transferList ts })
  attempt.orElse fun e => set "rejected" e.message
  return .nothing

def asyncGas : Value := .int 200000

def forwardAsync (target function : Bytes) (arguments : List Bytes) : Program Value := do
  let (native, ts) ← payment
  let r ← passOn target function arguments native ts
  Program.request (.callAsync { r with gas := asyncGas } (.text "on_result") (.list [.text "tag"]))
  set "async_issued" (.text "yes")
  return .nothing

def forwardAsyncThenFail (target function : Bytes) : Program Value := do
  let function ← decode function
  Program.request (.callAsync { receiver := .bytes target, function := .text function } (.text "on_result") (.list []))
  Program.signal "changed my mind"

def forwardAsyncNoCallback (target function : Bytes) (arguments : List Bytes) : Program Value := do
  let (native, ts) ← payment
  let r ← passOn target function arguments native ts
  Program.request (.callAsync { r with gas := asyncGas } .nothing (.list []))
  return .nothing

/-- Marks a visit and queues itself again with one less to go. -/
def asyncChain (self remainingRaw : Bytes) : Program Value := do
  let remaining := Codec.decodeUnsigned remainingRaw
  Program.request (.storageSet (.bytes (Utf8.encode "chain:" ++ remainingRaw)) (.text "visited"))
  if 0 < remaining then
    let request : CallRequest := {
      receiver := .bytes self
      function := .text "async_chain"
      arguments := .list [.int (remaining - 1 : Nat)] }
    Program.request (.callAsync request .nothing (.list []))
  return .nothing

def recurse (self depthRaw : Bytes) : Program Value := do
  let depth := Codec.decodeUnsigned depthRaw
  if depth = 0 then return .text "bottom"
  else
    let data ← Program.request (.call .propagate
      { receiver := .bytes self, function := .text "recurse", arguments := .list [.int (depth - 1 : Nat)] })
    return .list (bytesList data)

def sendNative (target amountRaw : Bytes) : Program Value := do
  Program.request (.send (.bytes target) .native (.int 0) (.int (Codec.decodeUnsigned amountRaw)))
  return .nothing

/-- Notes the outcome of a deferred call. -/
def onResult (e : Entry) : Program Value :=
  match e.asyncResult with
  | none => Program.fault (.noAttribute "NoneType" "status")
  | some r => do
    set "callback_status" (statusValue r)
    if r.isSuccess then set "callback_data" (.bytes (r.data.headD []))
    else set "callback_data" r.message
    match e.call.arguments.getLast? with
    | some last => log "callback" [statusValue r] (.bytes last)
    | none => Program.fault (.raised "IndexError" "tuple index out of range")
    return .nothing

/-- A body for two arguments and any number of further ones. -/
def withTwo (f : Bytes → Bytes → List Bytes → Program Value) (e : Entry) : Program Value :=
  match e.call.arguments with
  | a :: b :: r => f a b r
  | _ => Program.fail .argumentCount

/-- An endpoint that takes two arguments and any number of further ones. -/
def openEnded (name : String) (f : Bytes → Bytes → List Bytes → Program Value) : Endpoint where
  name := name
  method := name
  minArguments := 2
  body := withTwo f

/-- An endpoint that takes a fixed number of arguments. -/
def fixed (name : String) (count : Nat) (body : Entry → Program Value) : Endpoint where
  name := name
  method := name
  minArguments := count
  maxArguments := some count
  body := body

def withOne (f : Bytes → Bytes → Program Value) (e : Entry) : Program Value :=
  match e.call.arguments with
  | a :: _ => f e.call.receiver a
  | [] => Program.fail .argumentCount

def withThree (f : Bytes → Bytes → Bytes → Program Value) (e : Entry) : Program Value :=
  match e.call.arguments with
  | a :: b :: c :: _ => f a b c
  | _ => Program.fail .argumentCount

def contract : Contract := Contract.ofEndpoints [
  openEnded "forward_sync" forwardSync,
  openEnded "forward_sync_try" forwardSyncTry,
  openEnded "forward_transf_exec" forwardTransferExecute,
  fixed "forward_sync_try_gas" 3 (withThree forwardSyncTryGas),
  fixed "forward_transf_exec_mixed" 2 (withTwo fun a b _ => forwardMixed a b),
  openEnded "forward_async" forwardAsync,
  fixed "forward_async_then_fail" 2 (withTwo fun a b _ => forwardAsyncThenFail a b),
  openEnded "forward_async_no_callback" forwardAsyncNoCallback,
  fixed "async_chain" 1 (withOne asyncChain),
  fixed "recurse" 1 (withOne recurse),
  fixed "send_moax" 2 (withTwo fun a b _ => sendNative a b),
  { name := "on_result", method := "on_result", isCallback := true, body := onResult }]

end TrialLedger.Contracts.Forwarder
