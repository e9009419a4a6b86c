import Mathlib
import TrialLedger.Proofs.Bytes
import TrialLedger.Text.Quoted

/-! Bytes between quotes. What stands for a byte tells the byte and where it ends, so different byte strings are
shown by different texts, though the mark around them depends on what they hold. -/

namespace TrialLedger.Text

/-- The mark that bytes stand between. -/
def byteMark (b : Bytes) : Char := quoteMark (b.contains 39) (b.contains 34)

/-- What stands for a byte. -/
def quotedByte (mark : Char) (x : UInt8) : List Char :=
  if x < 0x80 then escapeChar mark (Char.ofNat x.toNat) else '\\' :: 'x' :: hexPadded 2 x.toNat

theorem quoteBytes_eq (b : Bytes) :
    quoteBytes b = String.ofList ('b' :: byteMark b :: b.flatMap (quotedByte (byteMark b)) ++ [byteMark b]) := rfl

/-! ### Reading one byte -/

/-- The byte that the first characters stand for, and what follows them. -/
def readByte? : List Char → Option (UInt8 × List Char)
  | '\\' :: 'n' :: r => some (10, r)
  | '\\' :: 'r' :: r => some (13, r)
  | '\\' :: 't' :: r => some (9, r)
  | '\\' :: 'x' :: c :: d :: r => do
    let hi ← Bytes.hexValue? c
    let lo ← Bytes.hexValue? d
    pure (UInt8.ofNat (16 * hi + lo), r)
  | '\\' :: c :: r => some (UInt8.ofNat c.toNat, r)
  | c :: r => some (UInt8.ofNat c.toNat, r)
  | [] => none

theorem readByte?_hexPadded {n : Nat} (h : n < 256) (r : List Char) :
    readByte? ('\\' :: 'x' :: (hexPadded 2 n ++ r)) = some (UInt8.ofNat n, r) := by
  have hdigits : 16 * (n / 16 % 16) + n % 16 = n := by omega
  simp only [hexPadded, List.nil_append, List.cons_append, readByte?, Bytes.hexValue?_hexDigit_mod,
    Option.bind_eq_bind, Option.bind_some, Option.pure_def, hdigits]

section

variable {mark : Char} (hmark : mark = '"' ∨ mark = '\'')

include hmark

theorem readByte?_escapeChar {c : Char} (h : c.toNat < 256) (r : List Char) :
    readByte? (escapeChar mark c ++ r) = some (UInt8.ofNat c.toNat, r) := by
  rw [escapeChar]
  split_ifs with hquote hn hr ht hplain
  · have hc : c = '"' ∨ c = '\'' ∨ c = '\\' := by
      rcases hquote with rfl | rfl
      · exact hmark.imp_right .inl
      · exact .inr (.inr rfl)
    rcases hc with rfl | rfl | rfl <;> rfl
  iterate 3 subst c; rfl
  · have hne : c ≠ '\\' := fun heq => hquote (.inr heq)
    rw [List.singleton_append, readByte?] <;> simp [hne]
  · exact readByte?_hexPadded h r

/-- A byte is read back from what stands for it. -/
theorem readByte?_quotedByte (x : UInt8) (r : List Char) : readByte? (quotedByte mark x ++ r) = some (x, r) := by
  have hx : x.toNat < 256 := x.toNat_lt
  rw [quotedByte]
  split
  · have hchar : (Char.ofNat x.toNat).toNat = x.toNat := by
      rw [Char.toNat_ofNat, if_pos (.inl (by omega))]
    rw [readByte?_escapeChar hmark (by omega), hchar, UInt8.ofNat_toNat]
  · exact (readByte?_hexPadded hx r).trans (by rw [UInt8.ofNat_toNat])

/-! ### All bytes -/

theorem quotedByte_append_inj {x y : UInt8} {r r' : List Char}
    (h : quotedByte mark x ++ r = quotedByte mark y ++ r') : x = y ∧ r = r' := by
  have hread := readByte?_quotedByte hmark x r
  rw [h, readByte?_quotedByte hmark y r', Option.some.injEq, Prod.mk.injEq] at hread
  exact ⟨hread.1.symm, hread.2.symm⟩

theorem flatMap_quotedByte_inj {a b : Bytes} (h : a.flatMap (quotedByte mark) = b.flatMap (quotedByte mark)) :
    a = b := by
  -- Something stands for every byte.
  have hne : ∀ x r, quotedByte mark x ++ r ≠ [] := by
    intro x r hnil
    have hread := readByte?_quotedByte hmark x r
    rw [hnil] at hread
    cases hread
  induction a generalizing b with
  | nil =>
    cases b with
    | nil => rfl
    | cons y b => exact absurd h.symm (hne y _)
  | cons x a ih =>
    cases b with
    | nil => exact absurd h (hne x _)
    | cons y b =>
      obtain ⟨rfl, hrest⟩ := quotedByte_append_inj hmark h
      rw [ih hrest]

end

theorem quoteBytes_inj {a b : Bytes} (h : quoteBytes a = quoteBytes b) : a = b := by
  have hmarks : ∀ single double, quoteMark single double = '"' ∨ quoteMark single double = '\'' := by decide
  rw [quoteBytes_eq, quoteBytes_eq] at h
  have hlist := String.ofList_injective h
  simp only [List.cons_append, List.cons.injEq, true_and] at hlist
  obtain ⟨hmark, hbody⟩ := hlist
  rw [hmark] at hbody
  exact flatMap_quotedByte_inj (hmarks _ _) (List.append_cancel_right hbody)

end TrialLedger.Text
