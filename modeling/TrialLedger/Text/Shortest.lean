/-! The shortest decimal text that reads back as a given binary number. A number
stands for all reals nearer to it than to its neighbours. Of the decimals in that
interval with the fewest digits the nearest one is taken, and of two equally near
ones the even one. -/

namespace TrialLedger.Text.Shortest

/-- A positive number `value / unit` and the interval it stands for; `closed` tells
whether the two ends belong to it. -/
structure Interval where
  low : Nat
  value : Nat
  high : Nat
  unit : Nat
  closed : Bool

/-- The interval of the number with the given fraction and exponent fields. Below a
power of two the neighbours lie twice as close. -/
def Interval.ofFields (fraction exponent : Nat) : Interval :=
  let m := if exponent = 0 then fraction else fraction + 2 ^ 52
  let e := if exponent = 0 then 1 else exponent
  let low := if fraction = 0 ∧ 1 < exponent then 4 * m - 1 else 4 * m - 2
  let up := 2 ^ (e - 1077)
  ⟨low * up, 4 * m * up, (4 * m + 2) * up, 2 ^ (1077 - e), m % 2 = 0⟩

/-- The decimal `digits * 10 ^ exponent`. -/
structure Decimal where
  digits : Nat
  exponent : Int
  deriving DecidableEq, Repr

/-- Whether a decimal lies in the interval. -/
def Interval.contains (i : Interval) (d : Decimal) : Bool :=
  let x := d.digits * 10 ^ d.exponent.toNat * i.unit
  let low := i.low * 10 ^ (-d.exponent).toNat
  let high := i.high * 10 ^ (-d.exponent).toNat
  if i.closed then low ≤ x && x ≤ high else low < x && x < high

/-- How many digits the value has before its point; zero or less below one tenth. -/
def Interval.magnitude (i : Interval) : Int :=
  if i.unit ≤ i.value then (Nat.toDigits 10 (i.value / i.unit)).length
  else
    let places := (Nat.toDigits 10 (i.unit / i.value)).length
    if i.value * 10 ^ (places - 1) = i.unit then 2 - (places : Int) else 1 - (places : Int)

/-- The better of the two decimals with `n` digits around the value, if one lies in the interval. -/
def Interval.pick? (i : Interval) (n : Nat) : Option Decimal :=
  let e := i.magnitude - n
  let num := i.value * 10 ^ (-e).toNat
  let den := i.unit * 10 ^ e.toNat
  let below : Decimal := ⟨num / den, e⟩
  let above : Decimal := ⟨num / den + 1, e⟩
  match i.contains below, i.contains above with
  | true, false => some below
  | false, true => some above
  | false, false => none
  | true, true =>
    let rest := 2 * (num % den)
    if rest < den ∨ (rest = den ∧ below.digits % 2 = 0) then some below else some above

/-- The shortest decimal of the interval; seventeen digits always suffice. -/
def Interval.shortest (i : Interval) : Decimal :=
  ((List.range 17).findSome? fun n => i.pick? (n + 1)).getD ⟨0, 0⟩

/-- Digits with a point among or before them, or with an exponent of at least two digits when
the point would stand more than sixteen digits after the first or four zeros before it. -/
def Decimal.layout (d : Decimal) : List Char :=
  let ds := ((Nat.toDigits 10 d.digits).reverse.dropWhile (· == '0')).reverse
  let point : Int := (Nat.toDigits 10 d.digits).length + d.exponent
  if point ≤ -4 ∨ 16 < point then
    let e := point - 1
    let es := Nat.toDigits 10 e.natAbs
    let tail := if ds.length = 1 then [] else '.' :: ds.drop 1
    ds.take 1 ++ tail ++ ['e', if e < 0 then '-' else '+'] ++ List.replicate (2 - es.length) '0' ++ es
  else if point ≤ 0 then '0' :: '.' :: List.replicate (-point).toNat '0' ++ ds
  else if ds.length ≤ point.toNat then ds ++ List.replicate (point.toNat - ds.length) '0' ++ ['.', '0']
  else ds.take point.toNat ++ '.' :: ds.drop point.toNat

/-- The text of a double-precision number. -/
def text (x : Float) : String :=
  let bits := x.toBits.toNat
  let fraction := bits % 2 ^ 52
  let exponent := bits / 2 ^ 52 % 2 ^ 11
  let sign := if bits / 2 ^ 63 = 1 then ['-'] else []
  if exponent = 2047 then (if fraction = 0 then String.ofList (sign ++ "inf".toList) else "nan")
  else if fraction = 0 ∧ exponent = 0 then String.ofList (sign ++ "0.0".toList)
  else String.ofList (sign ++ (Interval.ofFields fraction exponent).shortest.layout)

end TrialLedger.Text.Shortest
