import TrialLedger.Text.Quoted
import TrialLedger.Text.Utf8

/-! Token identifiers: the native coin or an issued token. On the wire the native
coin is the reserved name `MOAX`, so an issued token of that name reads back as the
native coin. Identifiers are compared by their wire names. -/

namespace TrialLedger

inductive Token where
  | native
  | issued (id : Bytes)
  deriving DecidableEq, Repr, Inhabited

namespace Token

/-- The four letters `MOAX`. -/
def nativeName : Bytes := [77, 79, 65, 88]

/-- Wire name. -/
def name : Token → Bytes
  | native => nativeName
  | issued id => id

/-- The identifier with the given wire name; a token name is not checked. -/
def parse (b : Bytes) : Token := if b = nativeName then native else issued b

def isNative : Token → Bool
  | native => true
  | issued _ => false

def issuedId? : Token → Option Bytes
  | native => none
  | issued id => some id

/-! ### Well-formed names -/

def isTickerByte (x : UInt8) : Bool := (65 ≤ x && x ≤ 90) || (48 ≤ x && x ≤ 57)

def isSuffixByte (x : UInt8) : Bool := (48 ≤ x && x ≤ 57) || (97 ≤ x && x ≤ 102)

/-- Three to ten capitals or digits, a hyphen, and six lower-case hexadecimal digits. -/
def isWellFormedName (b : Bytes) : Bool :=
  let ticker := b.takeWhile isTickerByte
  match b.dropWhile isTickerByte with
  | 45 :: suffix =>
    3 ≤ ticker.length && ticker.length ≤ 10 && suffix.length == 6 && suffix.all isSuffixByte
  | _ => false

def isValid : Token → Bool
  | native => true
  | issued id => isWellFormedName id

/-! ### Comparison -/

def same (t u : Token) : Bool := t.name == u.name

def lt (t u : Token) : Bool := t.name.lt u.name

def le (t u : Token) : Bool := t.lt u || t.same u

/-! ### Texts -/

def text (t : Token) : String := Utf8.decodeLenient t.name

def shown : Token → String
  | native => "TokenIdentifierOrNative.native()"
  | issued id => "TokenIdentifierOrNative.token(" ++ Text.quoteBytes id ++ ")"

end Token

end TrialLedger
