import TrialLedger.Stop
import TrialLedger.Value.Number

/-! What values consist of: the items that one goes through, the bytes that it stands for, and
the bytes of a storage key. -/

namespace TrialLedger.Value

/-! ### Items -/

def charValue (c : Char) : Value := text (String.singleton c)

def byteValue (x : UInt8) : Value := int x.toNat

/-- The members of a transfer with their names. -/
def transferItems (t : Transfer) : List Value :=
  [tuple [text "token", token t.token], tuple [text "nonce", int t.nonce], tuple [text "amount", int t.amount]]

def items : Value → Except Fault (List Value)
  | list vs | tuple vs => .ok vs
  | text s => .ok (s.toList.map charValue)
  | bytes b => .ok (b.map byteValue)
  | transfer t => .ok (transferItems t)
  | map es => .ok (es.map Prod.fst)
  | v => .error (.illTyped ("'" ++ v.typeName ++ "' object is not iterable"))

/-- What is said of a row that does not have three items. -/
def notThree (count : Nat) : Fault :=
  .raised "ValueError" (if count < 3
    then "not enough values to unpack (expected 3, got " ++ toString count ++ ")"
    else "too many values to unpack (expected 3)")

/-- The items of a row, of which there have to be three. -/
def three (v : Value) : Except Fault (Value × Value × Value) :=
  match v.items with
  | .ok [a, b, c] => .ok (a, b, c)
  | .ok vs => .error (notThree vs.length)
  | .error _ => .error (.illTyped ("cannot unpack non-iterable " ++ v.typeName ++ " object"))

/-! ### Bytes -/

def byte (v : Value) : Except Fault UInt8 :=
  match v.integer? with
  | some n =>
    if 0 ≤ n ∧ n < 256 then .ok (UInt8.ofNat n.toNat)
    else .error (.raised "ValueError" "bytes must be in range(0, 256)")
  | none => .error (.illTyped ("'" ++ v.typeName ++ "' object cannot be interpreted as an integer"))

/-- Bytes, or numbers that are bytes one by one. A text is none. -/
def byteString : Value → Except Fault Bytes
  | bytes b => .ok b
  | list vs | tuple vs => vs.mapM byte
  | transfer t => (transferItems t).mapM byte
  | v => .error (.illTyped ("cannot convert '" ++ v.typeName ++ "' object to bytes"))

/-- The most zeros that are written out for a key. -/
def longestKey : Int := 2 ^ 25

/-- As many zeros as a number says. -/
def zeroBytes (n : Int) : Except Fault Bytes :=
  if n < 0 then .error (.raised "ValueError" "negative count")
  else if 2 ^ 63 ≤ n then .error (.raised "OverflowError" "cannot fit 'int' into an index-sized integer")
  else if longestKey < n then .error (.thrown "MemoryError" "" "")
  else .ok (List.replicate n.toNat 0)

/-- The bytes that a value stands for as a key or a name: those of a text, bytes as they are, and
for a number so many zeros. -/
def key (v : Value) : Except Fault Bytes :=
  match v, v.integer? with
  | text s, _ => .ok (Utf8.encode s)
  | _, some n => zeroBytes n
  | v, none => v.byteString

/-- The bytes of a text, which is asked for them by a name that bytes themselves do not know. -/
def textBytes : Value → Except Fault Bytes
  | text s => .ok (Utf8.encode s)
  | v => .error (.noAttribute v.typeName "encode")

/-- The native coin, which takes no identifier of its own. An empty text is no identifier at all. -/
def nativeNamed (id : Value) : Except Fault Token :=
  if id.isTrue then .error (.raised "ValueError" "MOAX carries no identifier")
  else match id with
    | text _ => .error (.illTyped "string argument without an encoding")
    | v => v.key.map fun _ => .native

/-! ### Names of entries -/

def unhashable (v : Value) : Fault := .illTyped ("unhashable type: '" ++ v.typeName ++ "'")

mutual

/-- The part of a value that keeps it from naming an entry of a table, if there is one. -/
def unhashablePart : Value → Option Value
  | list vs => some (list vs)
  | map es => some (map es)
  | result status message data => some (result status message data)
  | tuple vs => unhashableItem vs
  | _ => none

def unhashableItem : List Value → Option Value
  | [] => none
  | v :: r => (unhashablePart v).orElse fun _ => unhashableItem r

end

/-- Refuses a value that cannot name an entry of a table. -/
def checkHashable (v : Value) : Except Fault Unit :=
  match unhashablePart v with
  | some part => .error (unhashable part)
  | none => .ok ()

end TrialLedger.Value
