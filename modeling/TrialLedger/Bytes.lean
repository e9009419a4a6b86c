/-! Byte strings. Numbers are written big-endian, bytes are written as two
lower-case hexadecimal digits, and byte strings are ordered like words in a
dictionary. -/

-- Powers of numbers are those of the core library, also where other libraries define powers.
attribute [instance (high)] instPowNat
attribute [default_instance (high)] instPowNat

namespace TrialLedger

abbrev Bytes := List UInt8

namespace Bytes

/-! ### Big-endian numbers -/

/-- The number whose base 256 digits are the bytes, most significant first. -/
def toNat (b : Bytes) : Nat :=
  b.foldl (fun n x => 256 * n + x.toNat) 0

/-- The last `w` base 256 digits of `n`, most significant first. -/
def ofNat : Nat → Nat → Bytes
  | 0, _ => []
  | w + 1, n => ofNat w (n / 256) ++ [UInt8.ofNat (n % 256)]

/-- How many bits it takes to write `n`; zero takes none. -/
def bitSize (n : Nat) : Nat := if n = 0 then 0 else n.log2 + 1

/-- How many bytes it takes to write `n`; zero takes none. -/
def width (n : Nat) : Nat := (bitSize n + 7) / 8

theorem toNat_nil : toNat [] = 0 := rfl

theorem toNat_append_singleton (b : Bytes) (x : UInt8) : toNat (b ++ [x]) = 256 * toNat b + x.toNat := by
  simp [toNat]

theorem length_ofNat (w n : Nat) : (ofNat w n).length = w := by
  induction w generalizing n with
  | zero => rfl
  | succ w ih => simp [ofNat, ih]

theorem toNat_ofNat (w n : Nat) : toNat (ofNat w n) = n % 256 ^ w := by
  induction w generalizing n with
  | zero => simp [ofNat, toNat_nil, Nat.mod_one]
  | succ w ih =>
    have hb : (UInt8.ofNat (n % 256)).toNat = n % 256 := by simp
    rw [ofNat, toNat_append_singleton, ih, hb, Nat.pow_succ', Nat.mod_mul]
    omega

/-! ### Two's complement -/

/-- The number that the bytes spell in two's complement. -/
def toInt : Bytes → Int
  | [] => 0
  | x :: r => if x < 128 then (toNat (x :: r) : Int) else (toNat (x :: r) : Int) - 256 ^ (r.length + 1)

/-- The last `w` base 256 digits of `v` in two's complement. -/
def ofInt (w : Nat) (v : Int) : Bytes := ofNat w (v % 256 ^ w).toNat

/-- How many bytes two's complement takes to write `v`; zero takes one, for its sign. -/
def signedWidth (v : Int) : Nat :=
  bitSize (if v < 0 then (-v - 1).toNat else v.toNat) / 8 + 1

theorem length_ofInt (w : Nat) (v : Int) : (ofInt w v).length = w := length_ofNat ..

/-! ### Hexadecimal -/

def hexDigit (n : Nat) : Char :=
  if n < 10 then Char.ofNat (n + 48) else Char.ofNat (n + 87)

def hexValue? (c : Char) : Option Nat :=
  if '0' ≤ c ∧ c ≤ '9' then some (c.toNat - 48)
  else if 'a' ≤ c ∧ c ≤ 'f' then some (c.toNat - 87)
  else if 'A' ≤ c ∧ c ≤ 'F' then some (c.toNat - 55)
  else none

def hexChars (b : Bytes) : List Char :=
  b.flatMap fun x => [hexDigit (x.toNat / 16), hexDigit (x.toNat % 16)]

/-- Two lower-case digits for each byte. -/
def hex (b : Bytes) : String := String.ofList b.hexChars

def isHexBlank (c : Char) : Bool :=
  c = ' ' || c = '\t' || c = '\n' || c = '\x0b' || c = '\x0c' || c = '\r'

/-- Reads pairs of hexadecimal digits of either case; blanks may stand between two pairs. -/
def ofHexChars? : List Char → Option Bytes
  | [] => some []
  | [c] => if isHexBlank c then some [] else none
  | c :: d :: r =>
    if isHexBlank c then ofHexChars? (d :: r)
    else do
      let hi ← hexValue? c
      let lo ← hexValue? d
      let rest ← ofHexChars? r
      pure (UInt8.ofNat (16 * hi + lo) :: rest)

def ofHex? (s : String) : Option Bytes := ofHexChars? s.toList

/-- Where the first character stands that keeps a text from being read, from a given position. A
digit without a second one is at fault behind itself. -/
def hexFlawFrom (i : Nat) : List Char → Nat
  | [] => i
  | [c] => if isHexBlank c || (hexValue? c).isNone then i else i + 1
  | c :: d :: r =>
    if isHexBlank c then hexFlawFrom (i + 1) (d :: r)
    else if (hexValue? c).isNone then i
    else if (hexValue? d).isNone then i + 1
    else hexFlawFrom (i + 2) r

/-- Why a text cannot be read; characters beyond ASCII are found first. -/
def hexFlaw (s : String) : String :=
  let cs := s.toList
  let i := (cs.findIdx? fun c => 0x80 ≤ c.toNat).getD (hexFlawFrom 0 cs)
  "non-hexadecimal number found in fromhex() arg at position " ++ toString i

/-! ### Parts -/

/-- A position as it is counted from the start; one below zero counts from the end. -/
def position (b : Bytes) (i : Int) : Nat := (if i < 0 then i + b.length else i).toNat

/-- The bytes from one position to another. -/
def slice (b : Bytes) (start stop : Int) : Bytes := (b.take (b.position stop)).drop (b.position start)

/-! ### Order -/

/-- Dictionary order: the first different byte decides, and a prefix comes first. -/
def le : Bytes → Bytes → Bool
  | [], _ => true
  | _ :: _, [] => false
  | x :: a, y :: b => if x = y then le a b else x < y

def lt (a b : Bytes) : Bool := a != b && le a b

end Bytes

end TrialLedger
