import TrialLedger.Text.Integer
import TrialLedger.Value.Arithmetic

/-! Amounts of coin, of tokens and of gas. They are whole numbers, and stay so unless contract code
brings a number with a point into play: what is added to such a number has a point as well.
Comparisons are exact for both kinds, and sums and differences of whole numbers are. -/

namespace TrialLedger

inductive Amount where
  | whole (n : Int)
  | real (x : Float)
  deriving Inhabited

namespace Amount

instance : Coe Int Amount := ⟨whole⟩

instance : Coe Nat Amount := ⟨fun n => whole n⟩

instance (n : Nat) : OfNat Amount n := ⟨whole n⟩

/-! ### Amounts among the values -/

def value : Amount → Value
  | whole n => .int n
  | real x => .float x

/-- The amount that a value stands for, none if it is no number. -/
def ofValue? : Value → Option Amount
  | .float x => some (real x)
  | v => v.integer?.map whole

def number : Amount → Number
  | whole n => Number.ofInt n
  | real x => Number.ofFloat x

def text (a : Amount) : String := a.value.display

/-- Whether an amount is short enough to be written. -/
def isWritable : Amount → Bool
  | whole n => Text.isWritable n
  | real _ => true

/-! ### Comparison -/

def lt (a b : Amount) : Bool := a.number.lt b.number

def same (a b : Amount) : Bool := a.number.same b.number

def isZero (a : Amount) : Bool := a.same 0

/-! ### Sums and differences -/

def float : Amount → Except Fault Float
  | whole n => Value.nearestFloat n
  | real x => .ok x

/-- Puts two amounts together in the way of their kinds. A whole number may be too large to be
brought to a number with a point. -/
def combine (exact : Int → Int → Int) (rounded : Float → Float → Float) : Amount → Amount → Except Fault Amount
  | whole m, whole n => .ok (whole (exact m n))
  | a, b => do return real (rounded (← a.float) (← b.float))

def plus : Amount → Amount → Except Fault Amount := combine (· + ·) (· + ·)

def minus : Amount → Amount → Except Fault Amount := combine (· - ·) (· - ·)

/-! ### Whole amounts -/

@[simp] theorem lt_whole (m n : Int) : (whole m).lt (whole n) = decide (m < n) := by
  simp [lt, number, Number.ofInt, Number.lt]

@[simp] theorem same_whole (m n : Int) : (whole m).same (whole n) = decide (m = n) := by
  simp [same, number, Number.ofInt, Number.same]
  rfl

@[simp] theorem isZero_whole (n : Int) : (whole n).isZero = decide (n = 0) := same_whole n 0

@[simp] theorem plus_whole (m n : Int) : (whole m).plus (whole n) = .ok (whole (m + n)) := rfl

@[simp] theorem minus_whole (m n : Int) : (whole m).minus (whole n) = .ok (whole (m - n)) := rfl

end Amount

end TrialLedger
