import TrialLedger.CallValue.Basic
import TrialLedger.Signature

/-! The accessors of call value by name, with values as operands. Most of them also go by a short
name. -/

namespace TrialLedger.CallValue

/-! ### Operands -/

/-- The position that an operand asks for among so many transfers. A number with a point lies in
range like any other one, but it is no position. -/
def positionOf (count : Nat) (v : Value) : Except Fault Int :=
  match v.number? with
  | none => .error (.illTyped ("'<=' not supported between instances of 'int' and '" ++ v.typeName ++ "'"))
  | some n =>
    if n.lt (Number.ofInt 0) || !n.lt (Number.ofInt count) then .error (.transferIndex v.display count)
    else match v.integer? with
      | some i => .ok i
      | none => .error (.illTyped ("tuple indices must be integers or slices, not " ++ v.typeName))

/-- The count that an operand asks for. What is no whole number is a count that never is. -/
def countOf (v : Value) : Int := (v.number?.bind Number.whole?).getD (-1)

/-! ### Answers as values -/

def transferTuple : Token × Nat × Int → Value
  | (token, nonce, amount) => .tuple [.token token, .int nonce, .int amount]

def fungiblePair : Token × Nat → Value
  | (token, amount) => .tuple [.token token, .int amount]

def transferList (ts : List Transfer) : Value := .list (ts.map .transfer)

def natural (n : Nat) : Value := .int n

def typeCode (t : TokenType) : Value := .int t.code

/-- A query with the value that its answer is told as. -/
structure Reading where
  query : Query
  value : query.Answer → Value

/-! ### Queries by name -/

/-- Queries that take no operand. -/
def plainReadings : List (String × Reading) := [
  ("check_not_payable", ⟨.checkNotPayable, fun _ => .nothing⟩),
  ("native_value", ⟨.nativeAmount, .int⟩),
  ("dct_value", ⟨.dctAmount, .int⟩),
  ("token", ⟨.token, .token⟩),
  ("dct_token_nonce", ⟨.tokenNonce, natural⟩),
  ("dct_token_type", ⟨.tokenType, typeCode⟩),
  ("all_token_transfers", ⟨.transfers, transferList⟩),
  ("transfer_count", ⟨.transferCount, natural⟩),
  ("single_transfer", ⟨.single, .transfer⟩),
  ("single_fungible_transfer", ⟨.singleFungible, fungiblePair⟩),
  ("native_or_single_transfer", ⟨.nativeOrSingle, .transfer⟩),
  ("native_or_single_fungible_transfer", ⟨.nativeOrSingleFungible, fungiblePair⟩)]

/-- Queries that take one operand, with what the operand is called. The count of transfers is
known to them. -/
def readingsOfOne : List (String × String × (Nat → Value → Except Fault Reading)) := [
  ("dct_token_type_by_index", "index", fun count v => do
    return ⟨.tokenTypeAt (← positionOf count v), typeCode⟩),
  ("transfer_at", "index", fun count v => do return ⟨.transferAt (← positionOf count v), transferTuple⟩),
  ("transfers_by_fixed_count", "count", fun _ v => .ok ⟨.fixedCount (countOf v), transferList⟩)]

def shortNames : List (String × String) := [
  ("all", "all_token_transfers"),
  ("count", "transfer_count"),
  ("at", "transfer_at"),
  ("fixed", "transfers_by_fixed_count"),
  ("single", "single_transfer"),
  ("single_fungible", "single_fungible_transfer"),
  ("native_or_single", "native_or_single_transfer"),
  ("native_or_single_fungible", "native_or_single_fungible_transfer")]

/-- The query that a name and its operands stand for, for a call with so many transfers. -/
def reading (count : Nat) (name : String) (operands : List Value) : Except Fault Reading :=
  let name := (shortNames.lookup name).getD name
  let operation := "CallValue." ++ name
  match plainReadings.lookup name, readingsOfOne.lookup name with
  | some r, _ => do
    Signature.check { operation } operands.length
    return r
  | none, some (operand, read) => do
    Signature.check { operation, required := [operand] } operands.length
    read count (operands.headD .nothing)
  | none, none => .error (.noAttribute "CallValue" name)

/-! ### Everything by name -/

/-- An action with the signature that its operands have to fit. -/
structure Step where
  signature : Signature
  act : List Value → Action CallValue Value

def told {α : Type} (f : α → Value) (x : Action CallValue α) : Action CallValue Value := do return f (← x)

def silent (x : Action CallValue Unit) : Action CallValue Value := told (fun _ => .nothing) x

/-- A step without operands. -/
def step (operation : String) (x : Action CallValue Value) : Step := ⟨{ operation }, fun _ => x⟩

/-- A step with one operand. -/
def stepWith (operation operand : String) (f : Value → Action CallValue Value) : Step :=
  ⟨{ operation, required := [operand] }, fun vs => f (vs.headD .nothing)⟩

/-- An action of the host that puts something under a handle. -/
def loading (f : Call → Key → Action HandleTable Unit) (dest : Value) : Action CallValue Value := do
  let h ← pureFault (Key.ofValue dest)
  silent (ask fun c => f c h)

/-- An action of the host on the transfer at a position. -/
def atPosition {α : Type} (f : α → Value) (x : Call → Int → Action HandleTable α) (index : Value) :
    Action CallValue Value := do
  let i ← pureFault (positionOf (Host.transferCount (← Action.get).call) index)
  told f (ask fun c => x c i)

def handleValue : Option Int → Value
  | some h => .int h
  | none => .nothing

def hostSteps : List (String × Step) :=
  let operation (name : String) := "CallValueHost." ++ name
  let plain (name : String) (x : Action CallValue Value) := (name, step (operation name) x)
  let one (name operand : String) (f : Value → Action CallValue Value) :=
    (name, stepWith (operation name) operand f)
  [ plain "check_not_payable" (silent (ask Host.checkNotPayable)),
    one "load_native_value" "dest_handle" (loading Host.loadNative),
    plain "transfer_count" (told natural transferCount),
    one "load_single_dct_value" "dest_handle" (loading Host.loadSingle),
    plain "token" (told handleValue (ask Host.token)),
    plain "dct_token_nonce" (told natural (ask Host.tokenNonce)),
    plain "dct_token_type" (told typeCode (ask Host.tokenType)),
    one "dct_token_type_by_index" "index" (atPosition typeCode Host.tokenTypeAt),
    one "token_by_index" "index" (atPosition .int Host.tokenAt),
    one "nonce_by_index" "index" (atPosition natural Host.nonceAt),
    one "value_by_index" "index" (atPosition .int Host.amountAt),
    one "load_all_transfers" "dest_handle" (loading Host.loadAll) ]

def handleSteps : List (String × Step) :=
  let operation (name : String) := "HandleTable." ++ name
  let one (name operand : String) (f : Value → Action CallValue Value) :=
    (name, stepWith (operation name) operand f)
  [ one "new" "value" fun v => told .int (onHandles (HandleTable.new v)),
    ("set", ⟨{ operation := operation "set", required := ["handle", "value"] }, fun vs =>
      silent (onHandles (HandleTable.storeAt (vs.headD .nothing) (vs.getD 1 .nothing)))⟩),
    one "get" "handle" fun v => onHandles (HandleTable.loadAt v),
    one "contains" "handle" fun v => told .bool (onHandles (HandleTable.holds v)),
    ("release", step (operation "release") (silent (onHandles (Action.modify HandleTable.release)))) ]

/-- What is fetched once is told as it lies in the table, whatever was put there since. -/
def fetchSteps : List (String × Step) := [
  ("native_value", step "CallValue.native_value" nativeValue),
  ("dct_value", step "CallValue.dct_value" dctValue)]

def ask? (name : String) (operands : List Value) : Action CallValue Value := do
  let r ← pureFault (reading (Host.transferCount (← Action.get).call) name operands)
  told r.value (answer r.query)

/-- A named step of a table. -/
def runStep (owner name : String) (operands : List Value) : Option Step → Action CallValue Value
  | some s => do
    pureFault (s.signature.check operands.length)
    s.act operands
  | none => Action.fault (.noAttribute owner name)

/-- Does what a name stands for, on the accessors, on the host or on the handle table. -/
def perform (name : String) (operands : List Value) : Action CallValue Value :=
  match Text.after? "host." name.toList, Text.after? "handles." name.toList with
  | some r, _ => runStep "CallValueHost" (String.ofList r) operands (hostSteps.lookup (String.ofList r))
  | none, some r => runStep "HandleTable" (String.ofList r) operands (handleSteps.lookup (String.ofList r))
  | none, none =>
    match fetchSteps.lookup name with
    | some s => runStep "CallValue" name operands (some s)
    | none => ask? name operands

end TrialLedger.CallValue
