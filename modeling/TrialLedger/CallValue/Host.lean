import TrialLedger.Handles

/-! The host's side of call value. Questions about the payments of a call are answered
by numbers, or by handles that are allocated in the table of the call's frame. -/

namespace TrialLedger

namespace Call

/-- The only transfer, if there is one; several transfers are a failure. -/
def single? (c : Call) : Except Failure (Option Transfer) :=
  match c.transfers with
  | [] => .ok none
  | [t] => .ok (some t)
  | _ => .error .cardinality

/-- The transfer at a position; negative positions are out of range too. -/
def transferAt (c : Call) (index : Int) : Except Fault Transfer :=
  if index < 0 then .error (.transferIndex (toString index) c.transfers.length)
  else match c.transfers[index.toNat]? with
    | some t => .ok t
    | none => .error (.transferIndex (toString index) c.transfers.length)

/-- The native coin that came with a call; a call that pays in tokens brings none. -/
def nativePaid (c : Call) : Nat := if c.transfers.isEmpty then c.native else 0

/-- Fails for a call that pays anything. -/
def checkNotPayable (c : Call) : Except Failure Unit :=
  if 0 < c.native then .error .nativeNotAccepted
  else if !c.transfers.isEmpty then .error .dctNotAccepted
  else .ok ()

end Call

namespace CallValue.Host

/-- An answer that needs no handle. -/
def plain {α : Type} (r : Except Failure α) : Action HandleTable α := Action.ofExcept (r.mapError .failure)

def indexed {α : Type} (r : Except Fault α) : Action HandleTable α := Action.ofExcept (r.mapError .fault)

def checkNotPayable (c : Call) : Action HandleTable Unit := plain c.checkNotPayable

def loadNative (c : Call) (dest : Key) : Action HandleTable Unit := HandleTable.store dest (.int c.nativePaid)

def transferCount (c : Call) : Nat := c.transfers.length

def loadSingle (c : Call) (dest : Key) : Action HandleTable Unit := do
  let t ← plain c.single?
  HandleTable.store dest (.int (match t with | some t => (t.amount : Int) | none => 0))

/-- A handle to the token of the only transfer, none when there is no transfer. -/
def token (c : Call) : Action HandleTable (Option Int) := do
  match ← plain c.single? with
  | none => pure none
  | some t => return some (← HandleTable.new (.token t.token))

def tokenNonce (c : Call) : Action HandleTable Nat := do
  match ← plain c.single? with
  | none => pure 0
  | some t => pure t.nonce

def tokenType (c : Call) : Action HandleTable TokenType := do
  match ← plain c.single? with
  | none => pure .fungible
  | some t => pure t.tokenType

def tokenTypeAt (c : Call) (index : Int) : Action HandleTable TokenType := do
  return (← indexed (c.transferAt index)).tokenType

def tokenAt (c : Call) (index : Int) : Action HandleTable Int := do
  let t ← indexed (c.transferAt index)
  HandleTable.new (.token t.token)

def nonceAt (c : Call) (index : Int) : Action HandleTable Nat := do
  return (← indexed (c.transferAt index)).nonce

def amountAt (c : Call) (index : Int) : Action HandleTable Int := do
  let t ← indexed (c.transferAt index)
  HandleTable.new (.int t.amount)

/-- Handles to the token and the amount of each transfer, with its nonce between them. -/
def allocateRows : List Transfer → Action HandleTable (List Value)
  | [] => pure []
  | t :: r => do
    let token ← HandleTable.new (.token t.token)
    let amount ← HandleTable.new (.int t.amount)
    let rows ← allocateRows r
    return .tuple [.int token, .int t.nonce, .int amount] :: rows

/-- Whether a handle was allocated between two states of a table. -/
def isAllocated (before after : HandleTable) : Key → Bool
  | .number n => before.next ≤ n && n < after.next
  | _ => false

/-- Puts one row per transfer under a handle. If one of the handles allocated on the way is
that handle, it keeps what was allocated. -/
def loadAll (c : Call) (dest : Key) : Action HandleTable Unit := do
  HandleTable.store dest (.list [])
  let before ← Action.get
  let rows ← allocateRows c.transfers
  let after ← Action.get
  if isAllocated before after dest then pure () else HandleTable.store dest (.list rows)

end CallValue.Host

end TrialLedger
