import TrialLedger.Contract

/-! A contract that keeps deposits of its callers, each under a key made of the caller's
address and the token, and that hands native deposits out again. -/

namespace TrialLedger.Contracts.Vault

def keyPrefix : Bytes := Utf8.encode "deposit:"

/-- The storage key of a deposit. -/
def depositKey (depositor : Bytes) (tokenName : Bytes) : Bytes := keyPrefix ++ depositor ++ 58 :: tokenName

def get (key : Bytes) : Program Bytes := Program.request (.storageGet (.bytes key))

def getUint (key : Bytes) : Program Nat := do return Codec.decodeUnsigned (← get key)

def set (key : Bytes) (v : Value) : Program Unit := Program.request (.storageSet (.bytes key) v)

def log (endpoint : String) (topics : List Value) (data : Value) : Program Unit :=
  Program.request (.log (.text endpoint) (.list topics) data)

def deposit (caller : Bytes) : Program Value := do
  let (token, amount) ← Program.request (.payment .nativeOrSingleFungible)
  Program.require (0 < amount) "nothing deposited"
  let key := depositKey caller token.name
  let held ← getUint key
  set key (.int (held + amount))
  log "deposit" [.bytes caller, .token token] (.int amount)
  return .int amount

/-- Pays back native coin that the caller has deposited. -/
def withdraw (caller : Bytes) (amountRaw : Bytes) : Program Value := do
  let amount := Codec.decodeUnsigned amountRaw
  let key := depositKey caller Token.nativeName
  Program.require (!(← get key).isEmpty) "nothing deposited"
  let held ← getUint key
  Program.require (amount ≤ held) "not enough deposited"
  if held = amount then set key (.bytes []) else set key (.int (held - amount : Nat))
  Program.request (.send (.bytes caller) .native (.int 0) (.int amount))
  log "withdraw" [.bytes caller] (.int amount)
  return .nothing

def storeThenFail (value : Bytes) : Program Value := do
  set (Utf8.encode "scratch") (.bytes value)
  log "about_to_fail" [] (.bytes [])
  Program.signal "vault refused"

def info (c : Call) : Program Value := do
  let owner ← Program.request (.owner .nothing)
  let balance ← Program.request (.balance (.bytes c.sender) .native (.int 0))
  return .list [.bytes c.receiver, .bytes c.sender,
    (match owner with | some b => .bytes b | none => .nothing), .bytes c.txHash, balance.value]

/-- An endpoint that takes a fixed number of arguments. -/
def fixed (name : String) (count : Nat) (body : Call → Program Value) : Endpoint where
  name := name
  method := name
  minArguments := count
  maxArguments := some count
  body := fun e => body e.call

/-- A body for one argument. -/
def withOne (f : Bytes → Program Value) (c : Call) : Program Value :=
  match c.arguments with
  | a :: _ => f a
  | [] => Program.fail .argumentCount

def contract : Contract := Contract.ofEndpoints [
  fixed "deposit" 0 fun c => deposit c.sender,
  fixed "withdraw" 1 fun c => withOne (withdraw c.sender) c,
  fixed "store_then_fail" 1 fun c => withOne storeThenFail c,
  { name := "echo", method := "echo", body := fun e => pure (.list (e.call.arguments.map .bytes)) },
  fixed "info" 0 info,
  { fixed "expensive" 0 (fun _ => pure (.text "done")) with gasCost := some (.int 50000) },
  fixed "crash" 0 fun _ => Program.fault (.raised "ZeroDivisionError" "contract bug")]

end TrialLedger.Contracts.Vault
