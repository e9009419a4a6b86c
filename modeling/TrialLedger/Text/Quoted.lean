import TrialLedger.Bytes
import TrialLedger.Text.Printable

/-! Values quoted inside messages. A text stands between single quotes, or between
double quotes when it holds a single quote and no double one. The quote in use, the
backslash and everything that is not printable are escaped. -/

namespace TrialLedger.Text

/-- `n` in exactly `w` lower-case hexadecimal digits. -/
def hexPadded (w n : Nat) : List Char :=
  match w with
  | 0 => []
  | w + 1 => hexPadded w (n / 16) ++ [Bytes.hexDigit (n % 16)]

def quoteMark (hasSingle hasDouble : Bool) : Char :=
  if hasSingle && !hasDouble then '"' else '\''

def escapeChar (mark c : Char) : List Char :=
  if c = mark ∨ c = '\\' then ['\\', c]
  else if c = '\n' then ['\\', 'n']
  else if c = '\r' then ['\\', 'r']
  else if c = '\t' then ['\\', 't']
  else if isPrintable c then [c]
  else if c.toNat < 0x100 then '\\' :: 'x' :: hexPadded 2 c.toNat
  else if c.toNat < 0x10000 then '\\' :: 'u' :: hexPadded 4 c.toNat
  else '\\' :: 'U' :: hexPadded 8 c.toNat

/-- A text between quotes. -/
def quote (s : String) : String :=
  let cs := s.toList
  let mark := quoteMark (cs.contains '\'') (cs.contains '"')
  String.ofList (mark :: cs.flatMap (escapeChar mark) ++ [mark])

/-- Bytes between quotes after a `b`: printable ASCII stands for itself. -/
def quoteBytes (b : Bytes) : String :=
  let mark := quoteMark (b.contains 39) (b.contains 34)
  let body := b.flatMap fun x =>
    if x < 0x80 then escapeChar mark (Char.ofNat x.toNat) else '\\' :: 'x' :: hexPadded 2 x.toNat
  String.ofList ('b' :: mark :: body ++ [mark])

end TrialLedger.Text
