import TrialLedger.Value

/-! Numbers among the values. Truth values count as one and zero, and numbers of different
types are compared exactly: a binary number is a fraction, an infinity, or no number at all. -/

namespace TrialLedger

inductive Number where
  | fraction (numerator : Int) (denominator : Nat)
  | infinity (isNegative : Bool)
  | undefined
  deriving DecidableEq, Repr

namespace Number

def ofInt (n : Int) : Number := fraction n 1

/-- The number with the given fields of a binary number. -/
def ofFields (isNegative : Bool) (exponent mantissa : Nat) : Number :=
  if exponent = 2047 then (if mantissa = 0 then infinity isNegative else undefined)
  else
    let m : Int := if exponent = 0 then mantissa else mantissa + 2 ^ 52
    let e := if exponent = 0 then 1 else exponent
    fraction ((if isNegative then -m else m) * 2 ^ (e - 1075)) (2 ^ (1075 - e))

def ofFloat (x : Float) : Number :=
  let bits := x.toBits.toNat
  ofFields (2 ^ 63 ≤ bits) (bits / 2 ^ 52 % 2 ^ 11) (bits % 2 ^ 52)

/-- What is undefined differs even from itself. -/
def same : Number → Number → Bool
  | fraction a b, fraction c d => a * d == c * b
  | infinity s, infinity t => s == t
  | _, _ => false

def lt : Number → Number → Bool
  | fraction a b, fraction c d => a * d < c * b
  | infinity s, infinity t => s && !t
  | infinity s, fraction .. => s
  | fraction .., infinity t => !t
  | _, _ => false

/-- The whole number that a number is, if it is one. -/
def whole? : Number → Option Int
  | fraction a b => if a % b = 0 then some (a / b) else none
  | _ => none

theorem lt_irrefl (n : Number) : n.lt n = false := by
  cases n <;> simp [lt]

end Number

namespace Value

/-- A value as a whole number, which a number with a point never is. -/
def integer? : Value → Option Int
  | bool b => some (if b then 1 else 0)
  | int n => some n
  | _ => none

def number? : Value → Option Number
  | float x => some (Number.ofFloat x)
  | v => v.integer?.map Number.ofInt

/-- Whether a value equals the whole number zero. -/
def isZero (v : Value) : Bool := (v.number?.map fun n => n.same (Number.ofInt 0)).getD false

end Value

end TrialLedger
