import TrialLedger.World.Basic
import TrialLedger.Json.Printer
import TrialLedger.Sha256
import TrialLedger.Text.Hexadecimal

/-! The digest of a world. Every account is written out as JSON with sorted members, so that the
text depends on what the world holds and not on the order in which it came. A world whose
numbers are too long to be written in decimal has none, nor has one with an account under what
cannot be written in base sixteen. -/

namespace TrialLedger.World

/-! ### What can be written -/

def nonceIsWritable : Value → Bool
  | .int n => Text.isWritable n
  | _ => true

def accountIsWritable (a : Account) : Bool :=
  Text.isWritable a.nonce && a.balance.isWritable &&
    a.dct.entries.all fun e => nonceIsWritable e.2.nonce && e.2.amount.isWritable

def checkAccount (a : Account) : Except Fault Unit :=
  if accountIsWritable a then .ok () else .error (.raised "ValueError" Text.unwritable)

/-- How the name of a stray account is written. Among the names that are no address, numbers with
a point alone have a form in base sixteen. -/
def strayName : Value → Except Fault String
  | .float x => .ok (Text.hexFloat x)
  | v => .error (.noAttribute v.typeName "hex")

def checkStray (s : Stray) : Except Fault Unit := do
  let _ ← strayName s.name
  checkAccount s.account

/-- Refuses a world that cannot be written. -/
def checkWritable (w : World) : Except Fault Unit := do
  w.accounts.entries.forM fun e => checkAccount e.2
  w.strays.entries.forM fun e => checkStray e.2

/-! ### The text of a world -/

/-- Members in the order of their names. -/
def sorted (members : List (String × Json)) : List (String × Json) :=
  members.mergeSort fun a b => decide (a.1 ≤ b.1)

def prefixedHex (b : Bytes) : String := "0x" ++ b.hex

/-- The name under which a holding is written. -/
def holdingName (e : (Bytes × Key) × Holding) : String := e.1.1.hex ++ ":" ++ e.2.nonce.display

/-- Holdings by their names; of two with one name the later counts. -/
def holdings (a : Account) : List (String × Json) :=
  (Table.ofList (a.dct.entries.map fun e => (holdingName e, Json.text e.2.amount.text))).entries

def storageMember (e : Bytes × Bytes) : String × Json := (e.1.hex, .text e.2.hex)

/-- Amounts are written as texts, the nonce as a number. -/
def accountDigest (a : Account) : Json :=
  .record [
    ("balance", .text a.balance.text),
    ("code", match a.code with | some c => .text c | none => .null),
    ("dct", .record (sorted (holdings a))),
    ("nonce", .int a.nonce),
    ("owner", match a.owner with | some b => .text (prefixedHex b) | none => .null),
    ("storage", .record (sorted (a.storage.entries.map storageMember)))]

/-- All accounts with the names under which they are written. -/
def named (w : World) : List (String × Account) :=
  w.accounts.entries.map (fun e => (e.1.hex, e.2)) ++
    w.strays.entries.filterMap fun e => (strayName e.2.name).toOption.map fun name => (name, e.2.account)

/-- The text that is digested. -/
def digestText (w : World) : String :=
  (Json.record (sorted (w.named.map fun (name, a) => (name, accountDigest a)))).print

def digest (w : World) : String := (Sha256.digest (Utf8.encode w.digestText)).hex

/-- The digest of a world that can be written. -/
def digest? (w : World) : Except Fault String := do
  w.checkWritable
  return w.digest

end TrialLedger.World
