import TrialLedger.Text.Digit
import TrialLedger.Text.Fields
import TrialLedger.Text.Quoted

/-! Whole numbers in decimal. A number may have blanks around it and one sign, and its
digits may be of any script; it has at most 4300 of them. Longer numbers have no
decimal text either. -/

namespace TrialLedger.Text

/-- The most digits a number may have. -/
def digitLimit : Nat := 4300

def overLimit : String := "Exceeds the limit (" ++ toString digitLimit ++ " digits) for integer string conversion"

/-- Why a number cannot be written. -/
def unwritable : String := overLimit ++ "; use sys.set_int_max_str_digits() to increase the limit"

/-- Why a number of so many digits cannot be read. -/
def unreadable (digits : Nat) : String :=
  overLimit ++ ": value has " ++ toString digits ++ " digits; use sys.set_int_max_str_digits() to increase the limit"

/-- The number that the digits spell after `acc`. -/
def ofDigits? (acc : Nat) : List Char → Option Nat
  | [] => some acc
  | c :: r => (digitValue? c).bind fun d => ofDigits? (10 * acc + d) r

/-- The digits of a numeral of any length. -/
def digits? (cs : List Char) : Option (List Char) :=
  if cs.isEmpty ∨ cs.any (fun c => (digitValue? c).isNone) then none else some cs

def readDigits? (cs : List Char) : Option Nat :=
  if cs.isEmpty ∨ digitLimit < cs.length then none else ofDigits? 0 cs

/-- The blanks that may stand around a number. The separator controls are not among them. -/
def isNumberBlank (c : Char) : Bool := isPlainBlank c || (0x80 ≤ c.toNat && isBlank c)

/-- What is left of a text without its blanks and its sign, and whether the sign is a minus. -/
def unsigned (cs : List Char) : Bool × List Char :=
  match trim isNumberBlank cs with
  | '-' :: r => (true, r)
  | '+' :: r => (false, r)
  | r => (false, r)

/-- Reads what is left of a text without its blanks and its sign. -/
def signed? (read : List Char → Option Nat) (cs : List Char) : Option Int :=
  let (isNegative, r) := unsigned cs
  (read r).map fun n => if isNegative then -(n : Int) else n

def readInteger? (cs : List Char) : Option Int := signed? readDigits? cs

/-- The digits of a number that may be grouped: a low line may stand between two of them. -/
def ungrouped? (cs : List Char) : Option (List Char) :=
  if (fields '_' cs).any List.isEmpty then none else some (cs.filter (· != '_'))

def readGrouped? (cs : List Char) : Option Int := signed? (fun r => (ungrouped? r).bind readDigits?) cs

/-- Reads a number whose digits may be grouped, or tells why it is none. -/
def readGrouped (s : String) : Except String Int :=
  match readGrouped? s.toList, (ungrouped? (unsigned s.toList).2).bind digits? with
  | some n, _ => .ok n
  | none, some digits => .error (unreadable digits.length)
  | none, none => .error ("invalid literal for int() with base 10: " ++ quote s)

/-- Whether a number is short enough to be written in decimal. -/
def isWritable (v : Int) : Bool := v.natAbs < 10 ^ digitLimit

end TrialLedger.Text
