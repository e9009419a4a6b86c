/-! Numbers with a point in base sixteen, exactly as they are held: a leading digit, the thirteen
digits of the fraction, and the power of two by which they are scaled. -/

namespace TrialLedger.Text

/-- The last digits of a number in base sixteen. -/
def hexDigits : (count : Nat) → Nat → List Char
  | 0, _ => []
  | count + 1, n => hexDigits count (n / 16) ++ [Nat.digitChar (n % 16)]

def scale (e : Int) : String := "p" ++ (if e < 0 then "-" else "+") ++ toString e.natAbs

/-- The text of a number with the given fields, but for its sign. -/
def hexMagnitude (exponent mantissa : Nat) : String :=
  let fraction := String.ofList (hexDigits 13 mantissa)
  if exponent = 0 ∧ mantissa = 0 then "0x0.0" ++ scale 0
  else if exponent = 0 then "0x0." ++ fraction ++ scale (-1022)
  else "0x1." ++ fraction ++ scale (exponent - 1023)

def hexFloat (x : Float) : String :=
  let bits := x.toBits.toNat
  let exponent := bits / 2 ^ 52 % 2 ^ 11
  let mantissa := bits % 2 ^ 52
  let sign := if 2 ^ 63 ≤ bits then "-" else ""
  if exponent = 2047 then (if mantissa = 0 then sign ++ "inf" else "nan")
  else sign ++ hexMagnitude exponent mantissa

end TrialLedger.Text
