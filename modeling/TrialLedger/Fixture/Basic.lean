import TrialLedger.Codec
import TrialLedger.Files
import TrialLedger.Json.Parser

/-! What a fixture is read with, and what can be wrong with it. A place in a fixture is
named by member names, list positions and keys, as in `steps[0].accounts[address:a].nonce`; a
key of it may be ragged. -/

namespace TrialLedger.Fixture

structure Context where
  /-- Where relative code names start from. -/
  directory : String := "."
  /-- Whether two spellings of one amount have to agree. -/
  strict : Bool := false
  defaultGasLimit : Int := 5000000

inductive Flaw where
  | badType (typeName : String)
  | negativeNumber (n : Int)
  | negativeText (t : Text)
  | beyondU64 (n : Nat)
  | noAddress
  | addressLength (length : Nat)
  | noCode
  | longName (name : Text) (room : Nat)
  | unfit (e : Codec.Error)
  | badNumber (t : Text)
  | badHex (t : Text)
  | unknownLiteral (t : Text)
  | conflict (used : String) (ignored value : Json)
  | noAmount
  | notObject
  | unknownMembers (names : List Text)
  | anyBalance
  | notList
  | notLogs
  | functionInTransfer
  | badCall (issues : List Issue)
  | badRecord (model : String) (issues : List Issue)
  | malformed

namespace Flaw

def message : Flaw → String
  | badType typeName => "unsupported value type " ++ typeName
  | negativeNumber n => "negative amount " ++ toString n
  | negativeText t => "negative amount " ++ t.quoted
  | beyondU64 n => toString n ++ " does not fit in u64"
  | noAddress => "address is required"
  | addressLength length => "address must be 32 bytes, got " ++ toString length
  | noCode => "code must be a non-empty string"
  | longName name room => "name " ++ name.quoted ++ " longer than " ++ toString room ++ " bytes"
  | unfit e => e.message
  | badNumber t => "invalid number " ++ t.quoted
  | badHex t => "invalid hex literal " ++ t.quoted
  | unknownLiteral t => "unrecognized value literal " ++ t.quoted
  | conflict used ignored value =>
    "conflicts with " ++ used ++ " (" ++ ignored.shown ++ " vs " ++ value.shown ++ ")"
  | noAmount => "token transfer amount is required"
  | notObject => "expected an object"
  | unknownMembers names => "unknown fields [" ++ ", ".intercalate (names.map Text.quoted) ++ "]"
  | anyBalance => "use \"+\" to allow any balance of unlisted tokens"
  | notList => "expected a list or \"*\""
  | notLogs => "expected a list of logs or \"*\""
  | functionInTransfer => "transfer steps cannot call a function"
  | badCall issues => Issue.firstMessage issues
  | badRecord model issues => Issue.headline model issues
  | malformed => "invalid JSON"

end Flaw

/-- Why a fixture cannot be read. -/
inductive ReadError where
  | misread (path : Text) (flaw : Flaw)
  | unopened (path : String) (e : Files.Error)
  /-- A list was asked for, and what is there has no items. -/
  | notIterable
  /-- A number is too long to be written. -/
  | unwritable
  /-- The bytes of a text were asked for that is ragged. -/
  | unencodable
  /-- There are more bytes than a length of four bytes can tell. -/
  | oversized
  /-- A number has too many digits to be read. -/
  | longNumber (digits : Nat)

namespace ReadError

def message : ReadError → Text
  | misread path flaw => path ++ ": " ++ flaw.message
  | unopened path e => e.message path
  | notIterable => "object is not iterable"
  | unwritable => Text.unwritable
  | unencodable => "surrogates not allowed"
  | oversized => "int too big to convert"
  | longNumber digits => Text.unreadable digits

/-- Whether the error lies in the fixture alone. Any other one ends whatever asked for the
fixture. -/
def isMisreading : ReadError → Bool
  | misread .. => true
  | unopened _ e => e.isSystems
  | notIterable | unwritable | unencodable | oversized | longNumber _ => false

end ReadError

abbrev Read (α : Type) := Except ReadError α

def misread {α : Type} (path : Text) (flaw : Flaw) : Read α := .error (.misread path flaw)

/-! ### Places -/

def member (path : Text) (name : String) : Text := path ++ "." ++ name

def keyed (path key : Text) : Text := path ++ "[" ++ key ++ "]"

def item (path : Text) (i : Nat) : Text := keyed path (toString i)

/-- Reads the items of a list, each at its place. -/
def readItems {α β : Type} (read : Text → α → Read β) (path : Text) (i : Nat) : List α → Read (List β)
  | [] => .ok []
  | a :: r => do
    let b ← read (item path i) a
    return b :: (← readItems read path (i + 1) r)

end TrialLedger.Fixture
