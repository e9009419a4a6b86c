import TrialLedger.Check.Accounts
import TrialLedger.Check.Expectation
import TrialLedger.Fixture.Account

/-! Patterns of a fixture. Null leaves a value unspecified and `*` stands for any value. A
last item `+` allows more logs, and a member `+` allows more entries or accounts. -/

namespace TrialLedger.Fixture

open Check

/-- A literal, or null or a star in place of one. -/
def readPattern {α : Type} (read : Json → Read α) (j : Json) : Read (Pattern α) :=
  if j.isNull then .ok .unspecified
  else if j.isText "*" then .ok .star
  else do return .exact (← read j) j

def readNumberPattern (ctx : Context) (path : Text) (j : Json) : Read (Pattern Int) :=
  readPattern (fun j => do return (← readAmount ctx path j : Nat)) j

def readBytesPattern (ctx : Context) (path : Text) (j : Json) : Read (Pattern Bytes) :=
  readPattern (readBytes ctx path) j

def readListPattern (ctx : Context) (path : Text) (j : Json) : Read ListPattern :=
  if j.isText "*" then .ok .star
  else match j with
    | .null => .ok .unspecified
    | .list items => do return .exact (← readItems (readBytesPattern ctx) path 0 items)
    | _ => misread path .notList

/-- A record at a place. -/
def readRecord {α : Type} (path : Text) (model : String) (r : Checked α) : Read α :=
  Except.mapError (fun issues => .misread path (.badRecord model issues)) r

/-! ### Results -/

def readLogPattern (ctx : Context) (path : Text) (j : Json) : Read LogPattern :=
  if j.isText "*" then .ok {}
  else do
    let r ← readRecord path LogRecord.model (LogRecord.ofJson j)
    let address ← readBytesPattern ctx (member path "address") r.address
    let endpoint ← readBytesPattern ctx (member path "endpoint") r.endpoint
    let topics ← readListPattern ctx (member path "topics") r.topics
    let data ← readBytesPattern ctx (member path "data") r.data
    return { address, endpoint, topics, data }

def endsWithPlus (items : List Json) : Bool :=
  match items.getLast? with
  | some j => j.isText "+"
  | none => false

def readLogsPattern (ctx : Context) (path : Text) (j : Json) : Read LogsPattern :=
  if j.isText "*" then .ok .any
  else match j with
    | .null => .ok .unspecified
    | .list items =>
      if endsWithPlus items then do
        return .unordered (← readItems (readLogPattern ctx) path 0 items.dropLast)
      else do
        return .exact (← readItems (readLogPattern ctx) path 0 items)
    | _ => misread path .notLogs

def readExpectation (ctx : Context) (path : Text) (r : ExpectationRecord) : Read Expectation := do
  let out ← readListPattern ctx (member path "out") r.out
  let status ← readNumberPattern ctx (member path "status") r.status
  let message ← readBytesPattern ctx (member path "message") r.message
  let logs ← readLogsPattern ctx (member path "logs") r.logs
  let gas ← readNumberPattern ctx (member path "gas") r.gas
  return { out, status, message, logs, gas }

/-! ### Accounts -/

/-- The members of a map pattern but for `+`, and whether `+` is one of them. -/
def splitPlus {α : Type} (members : List (Text × α)) : List (Text × α) × Bool :=
  (members.filter fun m => m.1 != .plain "+", members.any fun m => m.1 == .plain "+")

/-- The literal that a pattern of a holding shows; null shows the amount in its place. -/
def writtenHolding (j : Json) (amount : Nat) : Json :=
  match j with
  | .null => .int amount
  | j => j

def readDctEntries (ctx : Context) (path : Text) :
    List (Text × Json) → Read (List ((Bytes × Int) × Pattern Int))
  | [] => .ok []
  | (k, j) :: r => do
    let id ← readBytes ctx path (.text k)
    if j.isText "*" then misread (keyed path k) .anyBalance
    else
      let held ← readHoldings ctx (keyed path k) j
      let entries := held.map fun (nonce, amount) =>
        ((id, (nonce : Int)), Pattern.exact (amount : Int) (writtenHolding j amount))
      return entries ++ (← readDctEntries ctx path r)

def readStorageEntries (ctx : Context) (path : Text) :
    List (Text × Json) → Read (List (Bytes × Pattern Bytes))
  | [] => .ok []
  | (k, j) :: r => do
    let key ← readBytes ctx path (.text k)
    let p ← readBytesPattern ctx (keyed path k) j
    return (key, p) :: (← readStorageEntries ctx path r)

def readMapPattern {κ α : Type} (entries : List (Text × Json) → Read (List (κ × Pattern α))) (path : Text)
    (j : Json) : Read (MapPattern κ α) :=
  if j.isNull then .ok .unspecified
  else if j.isText "*" then .ok .star
  else do
    let (listed, allowMore) := splitPlus (← objectMembers path j)
    return .exact (← entries listed) allowMore

def readAccountPattern (ctx : Context) (path : Text) (j : Json) : Read AccountPattern :=
  if j.isText "*" then .ok {}
  else do
    let r ← readRecord path AccountRecord.model (AccountRecord.ofJson j)
    let code ← readPattern (readCode ctx (member path "code")) r.code
    let nonce ← readNumberPattern ctx (member path "nonce") r.nonce
    let balance ← readNumberPattern ctx (member path "balance") r.balance
    let dct ← readMapPattern (readDctEntries ctx (member path "dct")) (member path "dct") r.dct
    let storage ← readMapPattern (readStorageEntries ctx (member path "storage")) (member path "storage") r.storage
    let owner ← readBytesPattern ctx (member path "owner") r.owner
    return { nonce, balance, dct, storage, code := code.map some, owner := owner.map some }

def readAccountEntries (ctx : Context) (path : Text) :
    List (Text × Json) → Read (List (Bytes × AccountPattern))
  | [] => .ok []
  | (k, j) :: r => do
    let address ← readAddress ctx (keyed path k) (.text k)
    let p ← readAccountPattern ctx (keyed path k) j
    return (address, p) :: (← readAccountEntries ctx path r)

def readAccountsPattern (ctx : Context) (path : Text) (members : List (Text × Json)) : Read AccountsPattern := do
  let (listed, allowMore) := splitPlus members
  return ⟨← readAccountEntries ctx path listed, allowMore⟩

end TrialLedger.Fixture
