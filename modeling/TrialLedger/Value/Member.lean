import TrialLedger.Value.Number
import TrialLedger.Text.Integer

/-! Values as members of records. A member of a record takes what can be read as its type
without a loss: a whole number may be spelled as a text or have a point with nothing behind
it, bytes may be the bytes of a text, and a text may be given by its bytes. -/

namespace TrialLedger.Value

/-! ### Whole numbers -/

def isDigit (c : Char) : Bool := '0' ≤ c && c ≤ '9'

/-- A sign before a number, which may not stand before another sign: whether it is a minus, and the
rest. -/
def signSplit : List Char → Option (Bool × List Char)
  | '+' :: '-' :: _ => none
  | '+' :: '+' :: _ => none
  | '+' :: r => some (false, r)
  | '-' :: r => some (true, r)
  | r => some (false, r)

/-- A number without its leading zeros, which low lines may stand among. The last of nothing but
zeros stays, and so does the sign before a point. A minus may follow zeros. -/
def withoutLeadingZeros (cs : List Char) : List Char :=
  let rest := cs.dropWhile fun c => c = '0' || c = '_'
  let zeros := cs.takeWhile fun c => c = '0' || c = '_'
  match cs, rest with
  | '0' :: _, [] | '0' :: _, '.' :: _ => zeros.drop (zeros.length - 1) ++ rest
  | '0' :: _, rest => rest
  | cs, _ => cs

/-- A number without a point and the zeros behind it, of which there has to be one. -/
def withoutZeroFraction (cs : List Char) : List Char :=
  let fraction := (cs.dropWhile (· ≠ '.')).drop 1
  if !fraction.isEmpty && fraction.all (· = '0') then cs.takeWhile (· ≠ '.') else cs

/-- Digits without a leading zero, except for zero itself. -/
def numeral (cs : List Char) : Except Problem Nat :=
  if cs.isEmpty ∨ !cs.all isDigit ∨ (cs.head? = some '0' ∧ cs ≠ ['0']) then .error .noNumeral
  else if Text.digitLimit < cs.length then .error .longNumeral
  else .ok (cs.foldl (fun n c => 10 * n + (c.toNat - 48)) 0)

/-- Reads digits, between which low lines may stand, behind a minus if there is one. -/
def signedNumeral (cs : List Char) : Except Problem Int :=
  match Text.ungrouped? cs with
  | none => .error .noNumeral
  | some ('-' :: r) => (numeral r).map fun n => -(n : Int)
  | some r => (numeral r).map fun n => (n : Int)

/-- Reads a whole number with blanks around it and a sign before it. Zeros may lead, low lines may
stand between digits, and a point may have zeros behind it. -/
def spelledNumber (cs : List Char) : Except Problem Int :=
  match signSplit (Text.trim Text.isNumberBlank cs) with
  | none => .error .noNumeral
  | some (isNegative, r) =>
    let r := withoutZeroFraction (withoutLeadingZeros r)
    if isNegative ∧ r.head? = some '-' then .error .noNumeral
    else (signedNumeral r).map fun n => if isNegative then -n else n

/-- The whole number that a number with a point is. It has to fit in eight bytes. -/
def wholeNumber (n : Number) : Except Problem Int :=
  match n, n.whole? with
  | _, some n => if n.natAbs < 2 ^ 63 then .ok n else .error .longNumeral
  | .fraction .., none => .error .fractional
  | _, none => .error .notFinite

def asInteger : Value → Except Problem Int
  | bool b => .ok (if b then 1 else 0)
  | int n => .ok n
  | float x => wholeNumber (Number.ofFloat x)
  | text s => spelledNumber s.toList
  | bytes b =>
    match Utf8.decode b with
    | .ok s => spelledNumber s.toList
    | .error _ => .error .noNumeral
  | _ => .error .notInteger

/-- A whole number that is not below zero. -/
def asNatural (v : Value) : Except Problem Int := do
  let n ← v.asInteger
  if n < 0 then .error .belowZero else .ok n

/-! ### Other members -/

def asBytes : Value → Except Problem Bytes
  | bytes b => .ok b
  | text s => .ok (Utf8.encode s)
  | _ => .error .notBytes

def asText : Value → Except Problem String
  | text s => .ok s
  | bytes b => (Utf8.decode b).mapError fun _ => .brokenText
  | _ => .error .notText

def asToken : Value → Except Problem Token
  | token t => .ok t
  | _ => .error (.notInstance "TokenIdentifierOrNative")

def asTransfer : Value → Except Problem Transfer
  | transfer t => .ok t
  | _ => .error (.notRecord Transfer.model)

/-! ### Records -/

/-- The issue of a member that cannot be read. -/
def issueOf {α : Type} (name : String) : Except Problem α → List Issue
  | .ok _ => []
  | .error p => [⟨[name], p⟩]

/-- The transfer with the given members, or all that is wrong with them. -/
def makeTransfer (token nonce amount : Value) : Except (List Issue) Transfer :=
  match token.asToken, nonce.asNatural, amount.asNatural with
  | .ok t, .ok n, .ok a => .ok ⟨t, n.toNat, a.toNat⟩
  | t, n, a => .error (issueOf "token" t ++ issueOf "nonce" n ++ issueOf "amount" a)

end TrialLedger.Value
