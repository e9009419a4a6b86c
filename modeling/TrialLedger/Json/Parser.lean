import TrialLedger.Json.Basic
import TrialLedger.Text.Fields
import TrialLedger.Text.Integer
import TrialLedger.Text.Nearest

/-! Reading JSON text. Beside the standard it takes the numbers `NaN`, `Infinity` and
`-Infinity`. Whole numbers have at most as many digits as any number. -/

namespace TrialLedger.Json

inductive Error where
  | malformed
  | longNumber (digits : Nat)
  deriving DecidableEq, Repr

def Error.message : Error → String
  | malformed => "invalid JSON"
  | longNumber digits => Text.unreadable digits

def malformed {α : Type} : Except Error α := .error .malformed

def skipBlanks (cs : List Char) : List Char :=
  cs.dropWhile fun c => c = ' ' || c = '\t' || c = '\n' || c = '\r'

/-! ### Texts -/

def hexUnit? : List Char → Option (Nat × List Char)
  | a :: b :: c :: d :: r => do
    let a ← Bytes.hexValue? a
    let b ← Bytes.hexValue? b
    let c ← Bytes.hexValue? c
    let d ← Bytes.hexValue? d
    pure (4096 * a + 256 * b + 16 * c + d, r)
  | _ => none

def simpleEscape? (c : Char) : Option Char :=
  if c = '"' ∨ c = '\\' ∨ c = '/' then some c
  else if c = 'b' then some '\x08'
  else if c = 'f' then some '\x0c'
  else if c = 'n' then some '\n'
  else if c = 'r' then some '\r'
  else if c = 't' then some '\t'
  else none

/-- The escape of a low surrogate, if one comes next. -/
def lowUnit? : List Char → Option (Nat × List Char)
  | '\\' :: 'u' :: r => (hexUnit? r).filter fun p => 0xdc00 ≤ p.1 && p.1 < 0xe000
  | _ => none

/-- The point of an escaped number. A high surrogate takes a low one with it; a surrogate without
its partner stands by itself. -/
def unitPoint (unit : Nat) (r : List Char) : Point × List Char :=
  match (if 0xd800 ≤ unit ∧ unit < 0xdc00 then lowUnit? r else none) with
  | some (low, r') => (.char (Char.ofNat (0x10000 + 0x400 * (unit - 0xd800) + (low - 0xdc00))), r')
  | none => (.ofCode unit, r)

/-- What follows an opening quote, up to the closing one. -/
def readText : Nat → List Point → List Char → Except Error (Text × List Char)
  | 0, _, _ => malformed
  | fuel + 1, acc, cs =>
    match cs with
    | [] => malformed
    | '"' :: r => .ok (.ofPoints acc.reverse, r)
    | '\\' :: 'u' :: r =>
      match hexUnit? r with
      | some (unit, r') =>
        let (p, r'') := unitPoint unit r'
        readText fuel (p :: acc) r''
      | none => malformed
    | '\\' :: c :: r =>
      match simpleEscape? c with
      | some d => readText fuel (.char d :: acc) r
      | none => malformed
    | c :: r => if c.toNat < 0x20 ∨ c = '\\' then malformed else readText fuel (.char c :: acc) r

/-! ### Numbers -/

def isDigit (c : Char) : Bool := '0' ≤ c && c ≤ '9'

def digitsValue (cs : List Char) : Nat := cs.foldl (fun n c => 10 * n + (c.toNat - 48)) 0

/-- The fraction after a whole part: its digits and what follows. -/
def readFraction : List Char → List Char × List Char
  | '.' :: r => if (r.takeWhile isDigit).isEmpty then ([], '.' :: r) else (r.takeWhile isDigit, r.dropWhile isDigit)
  | cs => ([], cs)

/-- The exponent after a number, if one is there. -/
def readExponent (cs : List Char) : Option Int × List Char :=
  match cs with
  | c :: r =>
    if c = 'e' ∨ c = 'E' then
      let (negative, digits) := match r with
        | '-' :: r' => (true, r')
        | '+' :: r' => (false, r')
        | _ => (false, r)
      if (digits.takeWhile isDigit).isEmpty then (none, cs)
      else
        let e : Int := digitsValue (digits.takeWhile isDigit)
        (some (if negative then -e else e), digits.dropWhile isDigit)
    else (none, cs)
  | [] => (none, [])

/-- An unsigned number; a zero at its start stands alone. -/
def readNumber (negative : Bool) (cs : List Char) : Except Error (Json × List Char) :=
  let whole := match cs with
    | '0' :: _ => ['0']
    | _ => cs.takeWhile isDigit
  if whole.isEmpty then malformed
  else
    let (fraction, r) := readFraction (cs.drop whole.length)
    let (exponent, r) := readExponent r
    if fraction.isEmpty ∧ exponent.isNone then
      if Text.digitLimit < whole.length then .error (.longNumber whole.length)
      else
        let n : Int := digitsValue whole
        .ok (.int (if negative then -n else n), r)
    else .ok (.float (Text.nearest negative (digitsValue (whole ++ fraction)) (exponent.getD 0 - fraction.length)), r)

/-! ### Values -/

def words : List (String × Json) := [
  ("null", .null), ("true", .bool true), ("false", .bool false), ("NaN", .float (0.0 / 0.0)),
  ("Infinity", .float (1.0 / 0.0)), ("-Infinity", .float (-1.0 / 0.0))]

def readWord? (cs : List Char) : Option (Json × List Char) :=
  words.findSome? fun (word, j) => (Text.after? word cs).map fun r => (j, r)

mutual

def readValue : Nat → List Char → Except Error (Json × List Char)
  | 0, _ => malformed
  | fuel + 1, cs =>
    match cs with
    | '"' :: r => (readText (r.length + 1) [] r).map fun (s, r) => (.text s, r)
    | '[' :: r =>
      match skipBlanks r with
      | ']' :: r => .ok (.list [], r)
      | r => (readItems fuel r).map fun (items, r) => (.list items, r)
    | '\x7b' :: r =>
      match skipBlanks r with
      | '\x7d' :: r => .ok (.object [], r)
      | r => (readMembers fuel r).map fun (members, r) => (.object (distinct members), r)
    | _ =>
      match readWord? cs with
      | some (j, r) => .ok (j, r)
      | none =>
        match cs with
        | '-' :: r => readNumber true r
        | _ => readNumber false cs

/-- One or more items up to the closing bracket. -/
def readItems : Nat → List Char → Except Error (List Json × List Char)
  | 0, _ => malformed
  | fuel + 1, cs => do
    let (j, r) ← readValue fuel cs
    match skipBlanks r with
    | ']' :: r => .ok ([j], r)
    | ',' :: r =>
      let (items, r) ← readItems fuel (skipBlanks r)
      .ok (j :: items, r)
    | _ => malformed

/-- One or more members up to the closing brace. -/
def readMembers : Nat → List Char → Except Error (List (Text × Json) × List Char)
  | 0, _ => malformed
  | fuel + 1, cs =>
    match cs with
    | '"' :: r => do
      let (name, r) ← readText (r.length + 1) [] r
      match skipBlanks r with
      | ':' :: r =>
        let (j, r) ← readValue fuel (skipBlanks r)
        match skipBlanks r with
        | '\x7d' :: r => .ok ([(name, j)], r)
        | ',' :: r =>
          let (members, r) ← readMembers fuel (skipBlanks r)
          .ok ((name, j) :: members, r)
        | _ => malformed
      | _ => malformed
    | _ => malformed

end

/-- Reads a text that holds one value and nothing else. -/
def parse (s : String) : Except Error Json := do
  let cs := skipBlanks s.toList
  let (j, r) ← readValue (cs.length + 1) cs
  if (skipBlanks r).isEmpty then .ok j else malformed

end TrialLedger.Json
