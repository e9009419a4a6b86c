import TrialLedger.Fixture.Call
import TrialLedger.Fixture.Pattern
import TrialLedger.Sha256

/-! Scenarios: steps that are run one after the other. A scenario is read as a whole, so
that one with a fault anywhere does not run at all. -/

namespace TrialLedger

open Fixture

inductive Step where
  | setState (accounts : Table Bytes Account)
  | transaction (kind : TransactionKind) (id : Text) (call : Call) (expectation : Option Check.Expectation)
  | checkState (id : Text) (accounts : Check.AccountsPattern)

namespace Step

def kindName : Step → String
  | setState _ => "setState"
  | transaction kind .. => kind.name
  | checkState .. => "checkState"

def id : Step → Text
  | setState _ => ""
  | transaction _ id .. => id
  | checkState id _ => id

/-- The text that the hash of a transaction is made from. -/
def hashText (index : Nat) (id : Text) : Text := toString index ++ ":" ++ id

/-- The hash of a transaction. A ragged name leaves nothing to make it from. -/
def txHash (index : Nat) (id : Text) : Read Bytes := (textBytes (hashText index id)).map Sha256.digest

/-- Reads accounts; of two with one address the later counts. -/
def readAccounts (ctx : Context) (path : Text) (t : Table Bytes Account) :
    List (Text × AccountRecord) → Read (Table Bytes Account)
  | [] => .ok t
  | (k, r) :: rest => do
    let address ← readAddress ctx (keyed path k) (.text k)
    let a ← readAccount ctx (keyed path k) r
    readAccounts ctx path (t.put address a) rest

def readTransaction (ctx : Context) (path : Text) (index : Nat) (kind : TransactionKind) (r : TransactionRecord) :
    Read Step :=
  if kind = .transfer ∧ r.call.function ≠ .plain "" then
    misread (member (member path "tx") "function") .functionInTransfer
  else do
    let txHash ← txHash index r.id
    let call ← readCall ctx (member path "tx") txHash r.call
    let expectation ← match r.expectation with
      | none => pure none
      | some e => some <$> readExpectation ctx (member path "expect") e
    return .transaction kind r.id call expectation

def read (ctx : Context) (index : Nat) (r : StepRecord) : Read Step :=
  let path := item "steps" index
  match r with
  | .setState r => do return .setState (← readAccounts ctx (member path "accounts") Table.empty r.accounts)
  | .transaction kind r => readTransaction ctx path index kind r
  | .checkState r => do
    return .checkState r.id (← readAccountsPattern ctx (member path "accounts") r.accounts)

/-- Reads steps, of which the first has the given index. -/
def readFrom (ctx : Context) (index : Nat) : List StepRecord → Read (List Step)
  | [] => .ok []
  | r :: rest => do
    let s ← read ctx index r
    return s :: (← readFrom ctx (index + 1) rest)

end Step

/-- What is found where a scenario should be: a text, or JSON that was read before. -/
inductive Source where
  | text (s : String)
  | json (j : Json)

/-- A scenario as far as it could be read. It is named by itself, or else after its file. -/
structure Scenario where
  path : String
  name : Text
  steps : Read (List Step)

namespace Scenario

def unreadable (path : String) (e : ReadError) : Scenario := ⟨path, Path.baseName path, .error e⟩

def ofJson (ctx : Context) (path : String) (j : Json) : Scenario :=
  match readRecord path ScenarioRecord.model (ScenarioRecord.ofJson j) with
  | .error e => unreadable path e
  | .ok r => ⟨path, if r.name.isEmpty then .plain (Path.baseName path) else r.name, Step.readFrom ctx 0 r.steps⟩

def ofText (ctx : Context) (path s : String) : Scenario :=
  match Json.parse s with
  | .ok j => ofJson ctx path j
  | .error .malformed => unreadable path (.misread path .malformed)
  | .error (.longNumber digits) => unreadable path (.longNumber digits)

def ofSource (ctx : Context) (path : String) : Except Files.Error Source → Scenario
  | .error e => unreadable path (.unopened path e)
  | .ok (.text s) => ofText ctx path s
  | .ok (.json j) => ofJson ctx path j

end Scenario

end TrialLedger
