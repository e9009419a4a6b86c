/-! Decimals as binary numbers. A decimal stands for the binary number nearest to it. -/

namespace TrialLedger.Text

/-- The binary number nearest to `m * 10 ^ e`. Beyond four hundred digits nothing is left but
the infinite and zero. -/
def nearest (negative : Bool) (m : Nat) (e : Int) : Float :=
  let size : Int := (Nat.toDigits 10 m).length + e
  let x : Float :=
    if m = 0 ∨ size < -400 then 0.0
    else if 400 < size then 1.0 / 0.0
    else if 0 ≤ e then Float.ofScientific (m * 10 ^ e.toNat) false 0
    else Float.ofScientific m true (-e).toNat
  if negative then -x else x

end TrialLedger.Text
