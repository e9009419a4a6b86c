import TrialLedger.CallValue.Named
import TrialLedger.Script.Eval
import TrialLedger.Script.Syntax
import TrialLedger.Value.Arithmetic
import TrialLedger.Value.Compare
import TrialLedger.Value.Parts

/-! The operations of scripts on evaluated operands. Those that reach the engine have a fixed
signature; the others pass over operands that they do not need. -/

namespace TrialLedger.Script

abbrev Operation : Type := List Value → Eval Value

/-! ### Operands -/

def unary (f : Value → Eval Value) : Operation
  | a :: _ => f a
  | [] => Eval.fault absent

def binary (f : Value → Value → Eval Value) : Operation
  | a :: b :: _ => f a b
  | _ => Eval.fault absent

def computed (r : Except Fault Value) : Eval Value := Eval.ofExcept r

/-- The operand at a position, nothing if it is left out. -/
def operand (vs : List Value) (i : Nat) : Value := vs.getD i .nothing

/-- An operation with the signature that its operands have to fit. -/
structure Guarded where
  signature : Signature
  act : Operation

def Guarded.run (g : Guarded) (operands : List Value) : Eval Value := do
  Eval.ofExcept (g.signature.check operands.length)
  g.act operands

/-! ### Storage -/

def storageOperations : List (String × Guarded) :=
  let operation (name : String) := "Storage." ++ name
  let keyed (name : String) (f : Bytes → Value) : String × Guarded :=
    (name, ⟨{ operation := operation name, required := ["key"] }, fun vs => do
      return f (← Eval.request (.storageGet (operand vs 0)))⟩)
  [ keyed "get" .bytes,
    keyed "get_uint" fun b => .int (Codec.decodeUnsigned b),
    keyed "is_empty" fun b => .bool b.isEmpty,
    ("set", ⟨{ operation := operation "set", required := ["key", "value"] }, fun vs =>
      Eval.demand (.storageSet (operand vs 0) (operand vs 1))⟩),
    ("clear", ⟨{ operation := operation "clear", required := ["key"] }, fun vs =>
      Eval.demand (.storageSet (operand vs 0) (.bytes []))⟩) ]

/-! ### Accounts -/

def nativeTest (v : Value) : Fault := .noAttribute v.typeName "is_native"

/-- The balance of an address in a token, at a nonce. -/
def balance (address token nonce : Value) : Eval Value := do
  let t ← match token with
    | .nothing => pure Token.native
    | .token t => pure t
    | v => Eval.fault (nativeTest v)
  return (← Eval.request (.balance address t nonce)).value

/-- The owner of an account; without an address, of the account at hand. -/
def owner (address : Value) : Eval Value := do
  return match ← Eval.request (.owner address) with
    | some b => .bytes b
    | none => .nothing

def accountOperations (e : Entry) : List (String × Guarded) :=
  let operation (name : String) := "Blockchain." ++ name
  let plain (name : String) (x : Eval Value) : Guarded := ⟨{ operation := operation name }, fun _ => x⟩
  [ ("sc_address", plain "get_sc_address" (pure (.bytes e.call.receiver))),
    ("caller", plain "get_caller" (pure (.bytes e.call.sender))),
    ("tx_hash", plain "get_tx_hash" (pure (.bytes e.call.txHash))),
    ("gas_left", plain "get_gas_left" do return (← Eval.request .gasLeft).value),
    ("balance", ⟨{
        operation := operation "get_balance"
        required := ["address"]
        optional := ["token", "nonce"] },
      fun vs => balance (operand vs 0) (operand vs 1) (vs.getD 2 (.int 0))⟩),
    ("owner", ⟨{ operation := operation "get_owner_address", optional := ["address"] },
      fun vs => owner (operand vs 0)⟩) ]

/-! ### Payments -/

def sendDirect (receiver token nonce amount : Value) : Eval Value :=
  match token with
  | .token t => Eval.demand (.send receiver t nonce amount)
  | v => Eval.fault (nativeTest v)

def sendNative (receiver amount : Value) : Eval Value := Eval.demand (.send receiver .native (.int 0) amount)

def sendOperations : List (String × Guarded) := [
  ("direct", ⟨{ operation := "Send.direct", required := ["to", "token", "nonce", "amount"] },
    fun vs => sendDirect (operand vs 0) (operand vs 1) (operand vs 2) (operand vs 3)⟩),
  ("moax", ⟨{ operation := "Send.direct_moax", required := ["to", "amount"] },
    fun vs => sendNative (operand vs 0) (operand vs 1)⟩)]

/-! ### Logs and signals -/

def logOperation : Guarded where
  signature := {
    operation := "CallContext.emit_log"
    required := ["endpoint"]
    optional := ["topics", "data"] }
  act := fun vs => Eval.demand (.log (operand vs 0) (vs.getD 1 (.tuple [])) (vs.getD 2 (.bytes [])))

def failOperation : Guarded where
  signature := { operation := "CallContext.signal_error", required := ["message"] }
  act := fun vs => Eval.fail (.signalled .userError (operand vs 0))

def requireOperation : Guarded where
  signature := { operation := "CallContext.require", required := ["condition", "message"] }
  act := fun vs => if (operand vs 0).isTrue then pure .nothing else Eval.fail (.signalled .userError (operand vs 1))

/-- The status that a value stands for. -/
def statusOf (v : Value) : Eval Status :=
  match (v.number?.bind Number.whole?).bind Status.ofCode? with
  | some s => pure s
  | none => Eval.fault (.raised "ValueError" (Status.unknownCode v.shown))

/-- Fails with a status, with the usual one if none is given. -/
def failStatus (message status : Value) : Eval Value := do
  let s ← match status with
    | .nothing => pure .userError
    | v => statusOf v
  Eval.fail (.signalled s message)

def knownMistakes : List String := ["ValueError", "RuntimeError", "IndexError", "ZeroDivisionError"]

/-- Stops with a mistake of a known kind. A kind that is not known is a mistake of its own. -/
def mistake (kind message : Value) : Eval Value :=
  match kind with
  | .text k =>
    if knownMistakes.contains k then Eval.fault (.thrown k message.display message.shown)
    else Eval.fault (.raised "KeyError" k)
  | v => do
    Eval.ofExcept v.checkHashable
    Eval.fault (.thrown "KeyError" v.display v.shown)

/-! ### Values -/

/-- What is said of an index that no list reaches. -/
def beyondIndices : String := "cannot fit 'int' into an index-sized integer"

/-- The item at an index of at most eight bytes; one below zero counts from the end. -/
def itemAt (items : List Value) (index : Int) (outside : String) : Eval Value :=
  let i := if index < 0 then index + items.length else index
  match (if i < 0 then none else items[i.toNat]?) with
  | some v => pure v
  | none =>
    Eval.fault (.raised "IndexError" (if index < -2 ^ 63 ∨ 2 ^ 63 ≤ index then beyondIndices else outside))

def outsideTuple : String := "tuple index out of range"

def unfitIndex (kind typeName : String) : String := kind ++ " indices must be integers or slices, not " ++ typeName

/-- The items of a value that can be asked for by position, with what is said of a position
outside and of one that is no number but of the given type. -/
def indexed? : Value → Option (List Value × String × (String → String))
  | .list vs => some (vs, "list index out of range", unfitIndex "list")
  | .tuple vs => some (vs, outsideTuple, unfitIndex "tuple")
  | .bytes b => some (b.map Value.byteValue, "index out of range", unfitIndex "byte")
  | .text s => some (s.toList.map Value.charValue, "string index out of range", fun typeName =>
      "string indices must be integers, not '" ++ typeName ++ "'")
  | _ => none

def at_ (v index : Value) : Eval Value :=
  match indexed? v, index.integer? with
  | some (items, outside, _), some i => itemAt items i outside
  | some (_, _, unfit), none => Eval.fault (.illTyped (unfit index.typeName))
  | none, _ => Eval.fault (.illTyped ("'" ++ v.typeName ++ "' object is not subscriptable"))

def size : Value → Eval Value
  | .bytes b => pure (.int b.length)
  | .text s => pure (.int s.length)
  | .list vs | .tuple vs => pure (.int vs.length)
  | v => Eval.fault (.illTyped ("object of type '" ++ v.typeName ++ "' has no len()"))

/-- All operands joined, of which the first stands at the given position. -/
def joinedFrom (i : Nat) : List Value → Except Fault Bytes
  | [] => .ok []
  | .bytes b :: r => (joinedFrom (i + 1) r).map (b ++ ·)
  | v :: _ => .error (.illTyped ("sequence item " ++ toString i ++ ": expected a bytes-like object, " ++ v.typeName ++
      " found"))

/-- Decodes bytes, or what stands for bytes. Everything that is false stands for none. -/
def decoded (decode : Bytes → Int) (v : Value) : Eval Value :=
  if v.isTrue then Eval.ofExcept (v.byteString.map fun b => .int (decode b)) else pure (.int 0)

def name : Value → Eval Value
  | .token t => pure (.bytes t.name)
  | v => Eval.fault (.noAttribute v.typeName "name")

/-- A part of a value that is asked for by name. A part that is an action is done. -/
def field (v name : Value) : Eval Value :=
  match name with
  | .text s =>
    match v.part? s with
    | some (.ok part) => pure part
    | some (.error e) => Eval.halt (.stopped e)
    | none => Eval.fault (.noAttribute v.typeName s)
  | n => Eval.fault (.illTyped ("attribute name must be string, not '" ++ n.typeName ++ "'"))

/-- Operations that do not reach beyond their operands. -/
def valueOperations : List (String × Operation) := [
  ("uint", unary (decoded fun b => Codec.decodeUnsigned b)),
  ("sint", unary (decoded Codec.decodeSigned)),
  ("add", binary fun a b => computed (a.plus b)),
  ("sub", binary fun a b => computed (a.minus b)),
  ("gt", binary fun a b => computed ((a.above b).map .bool)),
  ("eq", binary fun a b => pure (.bool (a.same b))),
  ("concat", fun vs => computed ((joinedFrom 0 vs).map .bytes)),
  ("len", unary size),
  ("at", binary at_),
  ("name", unary name),
  ("field", binary field),
  ("fail_status", binary failStatus),
  ("raise", binary mistake)]

/-! ### By name -/

/-- Operations on the call that is answered, with the part of it that they ask. -/
def callOperations : List (String × String × (Entry → Operation)) := [
  ("self", "self_address", fun e _ => pure (.bytes e.call.receiver)),
  ("caller", "caller", fun e _ => pure (.bytes e.call.sender)),
  ("async_result", "async_result", fun e _ =>
    pure (match e.asyncResult with | some r => r.value | none => .nothing)),
  ("log", "emit_log", fun _ => logOperation.run),
  ("fail", "signal_error", fun _ => failOperation.run),
  ("require", "require", fun _ => requireOperation.run),
  ("reenter", "_engine", fun _ _ => Eval.demand .reenter)]

def payment (name : String) (operands : List Value) : Eval Value := do
  let count ← Eval.request (.payment .transferCount)
  let r ← Eval.ofExcept (CallValue.reading count name operands)
  return r.value (← Eval.request (.payment r.query))

def among (table : List (String × Guarded)) (unknown : Fault) (name : String) (operands : List Value) : Eval Value :=
  match table.lookup name with
  | some g => g.run operands
  | none => Eval.fault unknown

/-- Families of operations, with the part of the call that they ask. -/
def families : List (String × String × (Entry → String → Operation)) := [
  ("cv.", "call_value", fun _ => payment),
  ("st.", "storage", fun _ name => among storageOperations (.noAttribute "Storage" name) name),
  ("bc.", "blockchain", fun e name => among (accountOperations e) (.raised "KeyError" name) name),
  ("send.", "send", fun _ name => among sendOperations (.raised "KeyError" name) name)]

/-- The family that a name belongs to, with the rest of the name. -/
def family? (name : String) : Option (String × (Entry → Operation)) :=
  families.findSome? fun (start, part, f) =>
    (Text.after? start name.toList).map fun r => (part, fun e => f e (String.ofList r))

def operate (s : Scope) (name : String) (operands : List Value) : Eval Value :=
  match family? name, callOperations.lookup name, valueOperations.lookup name with
  | some (part, f), _, _ | none, some (part, f), _ => do f (← s.entryFor part) operands
  | none, none, some f => f operands
  | none, none, none => Eval.fault (unknown name)

end TrialLedger.Script
