import TrialLedger.Action
import TrialLedger.Amount
import TrialLedger.Key
import TrialLedger.Table

/-! The ledger: accounts with native and token balances, storage, and the name of the
contract that lives there. Nothing is stored for a token balance of zero or an empty storage
value that came about by an operation. Contract code may send to what is no address: an account
is opened under it all the same, astray from the others. -/

namespace TrialLedger

/-! ### Accounts -/

/-- A nonce as it is given. Nonces are equal when their keys are. -/
structure Nonce where
  key : Key
  given : Value

namespace Nonce

def ofInt (n : Int) : Nonce := ⟨.number n, .int n⟩

def ofValue (v : Value) : Except Fault Nonce := (Key.ofValue v).map fun k => ⟨k, v⟩

instance : Coe Int Nonce := ⟨ofInt⟩

end Nonce

/-- What is held of a token at a nonce, which is kept as it was given first. -/
structure Holding where
  nonce : Value
  amount : Amount

structure Account where
  nonce : Int := 0
  balance : Amount := 0
  dct : Table (Bytes × Key) Holding := Table.empty
  storage : Table Bytes Bytes := Table.empty
  code : Option Text := none
  owner : Option Bytes := none

namespace Account

/-- What the account holds of a token at a nonce. -/
def held (a : Account) (id : Bytes) (nonce : Key) : Amount :=
  ((a.dct.get? (id, nonce)).map Holding.amount).getD 0

def hold (a : Account) (id : Bytes) (nonce : Nonce) (amount : Amount) : Account :=
  let given := ((a.dct.get? (id, nonce.key)).map Holding.nonce).getD nonce.given
  { a with dct := a.dct.put (id, nonce.key) ⟨given, amount⟩ }

def withdraw (amount : Amount) (a : Account) : Except Fault Account := do
  return { a with balance := ← a.balance.minus amount }

def deposit (amount : Amount) (a : Account) : Except Fault Account := do
  return { a with balance := ← a.balance.plus amount }

/-- The account after a payment in tokens; nothing is stored for a balance that falls to zero. -/
def debit (id : Bytes) (nonce : Nonce) (amount : Amount) (a : Account) : Except Fault Account :=
  let held := a.held id nonce.key
  if held.same amount then .ok { a with dct := a.dct.erase (id, nonce.key) }
  else do return a.hold id nonce (← held.minus amount)

def credit (id : Bytes) (nonce : Nonce) (amount : Amount) (a : Account) : Except Fault Account := do
  return a.hold id nonce (← (a.held id nonce.key).plus amount)

end Account

/-! ### Worlds -/

/-- An account under what is no address. -/
structure Stray where
  name : Value
  account : Account

structure World where
  accounts : Table Bytes Account := Table.empty
  strays : Table Key Stray := Table.empty

/-- Where something is looked for or sent to. -/
inductive Place where
  | address (b : Bytes)
  | astray (name : Value)

instance : Coe Bytes Place := ⟨.address⟩

def Place.ofValue : Value → Place
  | .bytes b => .address b
  | v => .astray v

namespace World

def empty : World := {}

def account? (w : World) (address : Bytes) : Option Account := w.accounts.get? address

/-- The account, an empty one where there is none. -/
def account (w : World) (address : Bytes) : Account := (w.account? address).getD {}

def setAccount (w : World) (address : Bytes) (a : Account) : World :=
  { w with accounts := w.accounts.put address a }

/-- Opens an empty account unless there is one already. -/
def touch (w : World) (address : Bytes) : World :=
  match w.account? address with
  | some _ => w
  | none => w.setAccount address {}

/-- Changes an account, which is opened if need be. -/
def update (w : World) (address : Bytes) (f : Account → Account) : World :=
  w.setAccount address (f (w.account address))

def balance (w : World) (address : Bytes) : Amount := (w.account address).balance

def dctBalance (w : World) (address : Bytes) (id : Bytes) (nonce : Key) : Amount :=
  (w.account address).held id nonce

/-- The account at a place, if there is one. -/
def find? (w : World) : Place → Except Fault (Option Account)
  | .address b => .ok (w.account? b)
  | .astray name => (Key.ofValue name).map fun k => (w.strays.get? k).map Stray.account

/-- Changes the account at a place, which is opened if need be. -/
def change (place : Place) (f : Account → Except Fault Account) : Action World Unit := fun w =>
  match place with
  | .address b =>
    match f (w.account b) with
    | .ok a => (.ok (), w.setAccount b a)
    | .error e => (.error (.fault e), w)
  | .astray name =>
    match Key.ofValue name with
    | .error e => (.error (.fault e), w)
    | .ok k =>
      let s := (w.strays.get? k).getD ⟨name, {}⟩
      match f s.account with
      | .ok a => (.ok (), { w with strays := w.strays.put k { s with account := a } })
      | .error e => (.error (.fault e), w)

/-! ### Transfers -/

/-- Moves native coin. The sender's account is opened before its funds are looked at; an amount
of zero touches nothing. -/
def transferNative (sender : Bytes) (receiver : Place) (amount : Amount) : Action World Unit := fun w =>
  if amount.isZero then (.ok (), w)
  else
    let w := w.touch sender
    if (w.balance sender).lt amount then (.error (.failure .insufficientFunds), w)
    else (do
      change sender (Account.withdraw amount)
      change receiver (Account.deposit amount) : Action World Unit) w

/-- Moves an issued token, in the manner of the native coin. -/
def transferDct (sender : Bytes) (receiver : Place) (id : Bytes) (nonce : Nonce) (amount : Amount) :
    Action World Unit := fun w =>
  if amount.isZero then (.ok (), w)
  else
    let w := w.touch sender
    if (w.dctBalance sender id nonce.key).lt amount then (.error (.failure .insufficientFunds), w)
    else (do
      change sender (Account.debit id nonce amount)
      change receiver (Account.credit id nonce amount) : Action World Unit) w

def transfer (sender : Bytes) (receiver : Place) (token : Token) (nonce : Nonce) (amount : Amount) :
    Action World Unit :=
  match token with
  | .native => transferNative sender receiver amount
  | .issued id => transferDct sender receiver id nonce amount

/-- Moves transfers one after the other; those before a failing one stay moved. -/
def transferAll (sender receiver : Bytes) : List Transfer → Action World Unit
  | [] => pure ()
  | t :: r => do
    transfer sender receiver t.token (t.nonce : Int) t.amount
    transferAll sender receiver r

/-- Moves all that a call pays, native coin first. -/
def moveValue (c : Call) : Action World Unit := do
  if c.hasValue then
    transferNative c.sender c.receiver c.native
    transferAll c.sender c.receiver c.transfers

/-! ### Storage -/

def storageGet (w : World) (address key : Bytes) : Bytes := (w.account address).storage.getD key []

/-- Stores a value; an empty one clears its key. -/
def storageSet (w : World) (address key value : Bytes) : World :=
  w.update address fun a =>
    { a with storage := if value.isEmpty then a.storage.erase key else a.storage.put key value }

end World

end TrialLedger
