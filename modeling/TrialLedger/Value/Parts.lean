import TrialLedger.Signature
import TrialLedger.Text.Hexadecimal
import TrialLedger.Value.Number

/-! Parts of values by name: the members of outcomes and transfers, what a token tells of itself,
and a few forms of plain values. A part that is an action without operands is its result. -/

namespace TrialLedger.Value

/-- Parts by their names, some of which cannot be told. -/
abbrev Parts : Type := List (String × Except Stop Value)

/-- An action that lacks its operands. -/
def lacking (operation : String) (required : List String) : Except Stop Value :=
  .error (.fault (.illTyped (Signature.lacking { operation, required } required)))

/-! ### Records of the domain -/

def resultParts (status : Status) (message : Value) (data : List Bytes) : Parts := [
  ("status", .ok (int status.code)),
  ("message", .ok message),
  ("return_data", .ok (list (data.map bytes))),
  ("is_success", .ok (bool (status = .ok))),
  ("ok", lacking "CallResult.ok" ["return_data"]),
  ("failed", lacking "CallResult.failed" ["status", "message"])]

def transferTuple (t : Transfer) : Value := tuple [token t.token, int t.nonce, int t.amount]

def transferParts (t : Transfer) : Parts := [
  ("token", .ok (token t.token)),
  ("nonce", .ok (int t.nonce)),
  ("amount", .ok (int t.amount)),
  ("is_fungible", .ok (bool t.isFungible)),
  ("token_type", .ok (int t.tokenType.code)),
  ("as_tuple", .ok (transferTuple t))]

def issuedName (t : Token) : Value :=
  match t.issuedId? with
  | some id => bytes id
  | none => nothing

def tokenParts (t : Token) : Parts := [
  ("is_native", .ok (bool t.isNative)),
  ("is_token", .ok (bool !t.isNative)),
  ("is_valid", .ok (bool t.isValid)),
  ("name", .ok (bytes t.name)),
  ("as_token_option", .ok (issuedName t)),
  ("unwrap_token", (t.requireIssued.map bytes).mapError .failure),
  ("top_encode", .ok (bytes t.name)),
  ("nested_encode", .ok (bytes (Codec.encodeNestedToken t))),
  ("native", .ok (token .native)),
  ("token", lacking "TokenIdentifierOrNative.token" ["identifier"]),
  ("parse", lacking "TokenIdentifierOrNative.parse" ["data"])]

/-! ### Plain values -/

def wholeParts (n : Int) : Parts := [
  ("real", .ok (int n)),
  ("imag", .ok (int 0)),
  ("numerator", .ok (int n)),
  ("denominator", .ok (int 1)),
  ("conjugate", .ok (int n)),
  ("bit_length", .ok (int (Bytes.bitSize n.natAbs)))]

def realParts (x : Float) : Parts := [
  ("real", .ok (float x)),
  ("imag", .ok (float 0)),
  ("conjugate", .ok (float x)),
  ("is_integer", .ok (bool (Number.ofFloat x).whole?.isSome)),
  ("hex", .ok (text (Text.hexFloat x)))]

/-- The text that bytes spell. -/
def decoded (b : Bytes) : Except Stop Value :=
  match Utf8.decode b with
  | .ok s => .ok (text s)
  | .error place => .error (.fault (.invalidText b place))

def byteParts (b : Bytes) : Parts := [("hex", .ok (text b.hex)), ("decode", decoded b)]

def textParts (s : String) : Parts := [("encode", .ok (bytes (Utf8.encode s)))]

def listParts (vs : List Value) : Parts := [("copy", .ok (list vs))]

def parts (v : Value) : Parts :=
  match v with
  | result status message data => resultParts status message data
  | transfer t => transferParts t
  | token t => tokenParts t
  | float x => realParts x
  | bytes b => byteParts b
  | text s => textParts s
  | list vs => listParts vs
  | v => (v.integer?.map wholeParts).getD []

/-- The part of a value with the given name, if it has one, or why it cannot be told. -/
def part? (v : Value) (name : String) : Option (Except Stop Value) := v.parts.lookup name

end TrialLedger.Value
