import TrialLedger.Fixture.Literal
import TrialLedger.Fixture.Record
import TrialLedger.World.Basic

/-! Accounts of a fixture. A token is held as a plain amount, or as an object with a list of
instances that have a nonce and a balance each. -/

namespace TrialLedger.Fixture

/-- The members of an object; null has none. -/
def objectMembers (path : Text) : Json → Read (List (Text × Json))
  | .null => .ok []
  | .object members => .ok members
  | _ => misread path .notObject

/-! ### Tokens held -/

/-- What a list of instances is made of. A text is made of its points and an object of its
names, none of which is an instance. -/
def instanceItems : Json → Read (List Json)
  | .list items => .ok items
  | .text t => .ok (t.points.map fun p => .text (.ofPoints [p]))
  | .object members => .ok (members.map fun m => .text m.1)
  | _ => .error .notIterable

def readInstance (ctx : Context) (path : Text) : Json → Read (Nat × Nat)
  | .object members => do
    let nonce ← readU64 ctx (member path "nonce") ((Json.member? members "nonce").getD .null)
    let balance ← readAmount ctx (member path "balance") ((Json.member? members "balance").getD .null)
    return (nonce, balance)
  | _ => misread path .notObject

/-- What is held of a token: amounts with their nonces. A plain amount has nonce zero. -/
def readHoldings (ctx : Context) (path : Text) : Json → Read (List (Nat × Nat))
  | .object members =>
    match (members.map Prod.fst).filter (· != .plain "instances") with
    | [] => do
      let items ← instanceItems ((Json.member? members "instances").getD (.list []))
      readItems (readInstance ctx) (member path "instances") 0 items
    | names => misread path (.unknownMembers (names.mergeSort Text.le))
  | j => do return [(0, ← readAmount ctx path j)]

/-! ### Accounts -/

/-- Holdings by token and nonce. -/
abbrev Holdings : Type := Table (Bytes × Key) Holding

/-- Adds what is held of a token; nothing is stored for an amount of zero. -/
def putHoldings (id : Bytes) (t : Holdings) (held : List (Nat × Nat)) : Holdings :=
  held.foldl (fun t (nonce, amount) =>
    if amount = 0 then t else t.put (id, .number nonce) ⟨.int nonce, amount⟩) t

def readDct (ctx : Context) (path : Text) (t : Holdings) : List (Text × Json) → Read Holdings
  | [] => .ok t
  | (k, j) :: r => do
    let id ← readBytes ctx path (.text k)
    let held ← readHoldings ctx (keyed path k) j
    readDct ctx path (putHoldings id t held) r

def readStorage (ctx : Context) (path : Text) (t : Table Bytes Bytes) :
    List (Text × Json) → Read (Table Bytes Bytes)
  | [] => .ok t
  | (k, j) :: r => do
    let key ← readBytes ctx path (.text k)
    let value ← readBytes ctx (keyed path k) j
    readStorage ctx path (if value.isEmpty then t else t.put key value) r

/-- Reads a value unless it is null. -/
def readPresent {α : Type} (read : Json → Read α) (j : Json) : Read (Option α) :=
  if j.isNull then .ok none else do return some (← read j)

def readAccount (ctx : Context) (path : Text) (r : AccountRecord) : Read Account := do
  let nonce ← readU64 ctx (member path "nonce") r.nonce
  let balance ← readAmount ctx (member path "balance") r.balance
  let held ← objectMembers (member path "dct") r.dct
  let dct ← readDct ctx (member path "dct") Table.empty held
  let stored ← objectMembers (member path "storage") r.storage
  let storage ← readStorage ctx (member path "storage") Table.empty stored
  let code ← readPresent (readCode ctx (member path "code")) r.code
  let owner ← readPresent (readAddress ctx (member path "owner")) r.owner
  return { nonce, balance, dct, storage, code, owner }

end TrialLedger.Fixture
