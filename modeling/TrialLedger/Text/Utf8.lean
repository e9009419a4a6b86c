import TrialLedger.Bytes

/-! Text as bytes. Reading back refuses the first bytes that begin no
character, and says where they lie and what is wrong with them. The lenient
reader puts the replacement character in their place and goes on. -/

namespace TrialLedger.Utf8

/-- The encoding of each character in turn. -/
def encode (s : String) : Bytes := s.toList.flatMap String.utf8EncodeChar

inductive Flaw where
  | invalidStart
  | invalidContinuation
  | unexpectedEnd
  deriving DecidableEq, Repr

namespace Flaw

def message : Flaw → String
  | invalidStart => "invalid start byte"
  | invalidContinuation => "invalid continuation byte"
  | unexpectedEnd => "unexpected end of data"

end Flaw

/-- How many continuation bytes a first byte asks for, the bits of the character that
it holds, and the range in which the first continuation byte has to lie. -/
def lead? (x : UInt8) : Option (Nat × Nat × UInt8 × UInt8) :=
  if 0xC2 ≤ x ∧ x ≤ 0xDF then some (1, x.toNat % 32, 0x80, 0xBF)
  else if x = 0xE0 then some (2, 0, 0xA0, 0xBF)
  else if x = 0xED then some (2, 13, 0x80, 0x9F)
  else if 0xE1 ≤ x ∧ x ≤ 0xEF then some (2, x.toNat % 16, 0x80, 0xBF)
  else if x = 0xF0 then some (3, 0, 0x90, 0xBF)
  else if x = 0xF4 then some (3, 4, 0x80, 0x8F)
  else if 0xF1 ≤ x ∧ x ≤ 0xF3 then some (3, x.toNat % 8, 0x80, 0xBF)
  else none

/-- Reads `n` continuation bytes onto `acc`. A failure tells how many of them were good. -/
def continued : Nat → Nat → UInt8 → UInt8 → Bytes → Nat → Except (Flaw × Nat) (Nat × Nat)
  | 0, acc, _, _, _, used => .ok (acc, used)
  | _ + 1, _, _, _, [], used => .error (.unexpectedEnd, used)
  | n + 1, acc, lo, hi, x :: r, used =>
    if lo ≤ x ∧ x ≤ hi then continued n (64 * acc + x.toNat % 64) 0x80 0xBF r (used + 1)
    else .error (.invalidContinuation, used)

/-- The first character and the number of bytes after its first byte, or the flaw and the
number of further bytes that it takes in. -/
def next (x : UInt8) (r : Bytes) : Except (Flaw × Nat) (Char × Nat) :=
  if x < 0x80 then .ok (Char.ofNat x.toNat, 0)
  else match lead? x with
    | none => .error (.invalidStart, 0)
    | some (n, acc, lo, hi) =>
      match continued n acc lo hi r 0 with
      | .ok (code, used) => .ok (Char.ofNat code, used)
      | .error e => .error e

/-- Where a text stops being one: the bytes from `start` to `stop`. -/
structure Invalid where
  start : Nat
  stop : Nat
  flaw : Flaw
  deriving DecidableEq, Repr

def decodeFrom (at_ : Nat) : Bytes → Except Invalid (List Char)
  | [] => .ok []
  | x :: r =>
    match next x r with
    | .error (flaw, used) => .error ⟨at_, at_ + 1 + used, flaw⟩
    | .ok (c, used) => (decodeFrom (at_ + 1 + used) (r.drop used)).map (c :: ·)
termination_by b => b.length
decreasing_by simp only [List.length_drop, List.length_cons]; omega

/-- The text that the bytes encode. -/
def decode (b : Bytes) : Except Invalid String := (decodeFrom 0 b).map String.ofList

def decodeLenientChars : Bytes → List Char
  | [] => []
  | x :: r =>
    match next x r with
    | .error (_, used) => '\ufffd' :: decodeLenientChars (r.drop used)
    | .ok (c, used) => c :: decodeLenientChars (r.drop used)
termination_by b => b.length
decreasing_by all_goals (simp only [List.length_drop, List.length_cons]; omega)

/-- The text of any bytes: what cannot be read becomes the replacement character. -/
def decodeLenient (b : Bytes) : String := String.ofList (decodeLenientChars b)

end TrialLedger.Utf8
