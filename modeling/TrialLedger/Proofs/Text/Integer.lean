import Mathlib
import TrialLedger.Text.Integer

/-! Whole numbers in decimal. The text of a number in the digits of ASCII, with a minus if it is negative, reads
back as the number. -/

namespace TrialLedger.Text

/-! ### Digits -/

theorem isDigit_of_mem_toDigits {n : Nat} {c : Char} (h : c ∈ Nat.toDigits 10 n) : c.isDigit = true :=
  Nat.isDigit_of_mem_toDigits (by decide) (by decide) h

theorem isDigit_iff {c : Char} : c.isDigit = true ↔ 48 ≤ c.toNat ∧ c.toNat ≤ 57 := by
  rw [Char.isDigit, Bool.and_eq_true, decide_eq_true_eq, decide_eq_true_eq]
  rfl

theorem digitValue?_of_isDigit {c : Char} (h : c.isDigit = true) : digitValue? c = some (c.toNat - 48) := by
  obtain ⟨hlow, hhigh⟩ := isDigit_iff.1 h
  rw [digitValue?, zeros, List.find?_cons_of_pos (by simp; omega)]
  rfl

theorem ofDigits?_of_isDigit {cs : List Char} (h : ∀ c ∈ cs, c.isDigit = true) (acc : Nat) :
    ofDigits? acc cs = some (Nat.ofDigitChars 10 cs acc) := by
  induction cs generalizing acc with
  | nil => rfl
  | cons c r ih =>
    rw [ofDigits?, digitValue?_of_isDigit (h c List.mem_cons_self)]
    exact ih (fun d hd => h d (List.mem_cons_of_mem _ hd)) _

theorem readDigits?_toDigits {n : Nat} (h : (Nat.toDigits 10 n).length ≤ digitLimit) :
    readDigits? (Nat.toDigits 10 n) = some n := by
  have hne : (Nat.toDigits 10 n).isEmpty = false := by
    simp [Nat.toDigits_ne_nil]
  rw [readDigits?, hne, if_neg (by simpa using h), ofDigits?_of_isDigit fun _ => isDigit_of_mem_toDigits,
    Nat.ofDigitChars_ten_toDigits]

/-- A number is zero when all its digits are. -/
theorem ofDigitChars_eq_zero_iff {cs : List Char} (h : ∀ c ∈ cs, c.isDigit = true) :
    Nat.ofDigitChars 10 cs 0 = 0 ↔ ∀ c ∈ cs, c = '0' := by
  have hfrom : ∀ acc, Nat.ofDigitChars 10 cs acc = 0 ↔ acc = 0 ∧ ∀ c ∈ cs, c = '0' := by
    induction cs with
    | nil => simp [Nat.ofDigitChars]
    | cons c r ih =>
      intro acc
      obtain ⟨hc, hr⟩ := List.forall_mem_cons.1 h
      have hzero : c.toNat - 48 = 0 ↔ c = '0' := by
        obtain ⟨hlow, -⟩ := isDigit_iff.1 hc
        rw [← Char.toNat_inj]
        change c.toNat - 48 = 0 ↔ c.toNat = 48
        omega
      have hfirst : 10 * acc + (c.toNat - 48) = 0 ↔ acc = 0 ∧ c = '0' := by
        rw [← hzero]
        omega
      rw [List.forall_mem_cons, ← and_assoc, ← hfirst]
      exact ih hr _
  simpa using hfrom 0

/-! ### Signs and blanks -/

/-- What is cut off a text are blanks. -/
theorem mem_trim {blank : Char → Bool} {cs : List Char} {c : Char} (h : c ∈ cs) :
    c ∈ trim blank cs ∨ blank c = true := by
  have hdrop : ∀ l : List Char, c ∈ l → c ∈ l.dropWhile blank ∨ blank c = true := by
    intro l hl
    rw [← l.takeWhile_append_dropWhile (p := blank), List.mem_append] at hl
    exact hl.symm.imp_right List.mem_takeWhile_imp
  rcases hdrop cs h with hfront | hblank
  · rw [trim, List.mem_reverse]
    exact hdrop _ (List.mem_reverse.2 hfront)
  · exact .inr hblank

theorem trim_eq_self {blank : Char → Bool} {cs : List Char} (h : ∀ c ∈ cs, blank c = false) : trim blank cs = cs := by
  have hdrop : ∀ l : List Char, (∀ c ∈ l, blank c = false) → l.dropWhile blank = l := by
    rintro (_ | ⟨c, l⟩) hl
    · rfl
    · exact List.dropWhile_cons_of_neg (by simp [hl c List.mem_cons_self])
  rw [trim, hdrop cs h, hdrop cs.reverse fun c hc => h c (List.mem_reverse.1 hc), List.reverse_reverse]

/-- The sign of a number and its digits. -/
def decimal (n : Int) : List Char := (if n < 0 then ['-'] else []) ++ Nat.toDigits 10 n.natAbs

theorem isNumberBlank_eq_false {c : Char} (hlow : 0x20 < c.toNat) (hhigh : c.toNat < 0x80) :
    isNumberBlank c = false := by
  have hspace : c ≠ ' ' := by
    rintro rfl
    exact absurd hlow (by decide)
  rw [isNumberBlank, isPlainBlank, beq_false_of_ne hspace]
  simp only [Bool.or_false, Bool.or_eq_false_iff, Bool.and_eq_false_imp, decide_eq_true_eq,
    decide_eq_false_iff_not, not_le]
  omega

theorem isNumberBlank_of_isDigit {c : Char} (h : c.isDigit = true) : isNumberBlank c = false := by
  obtain ⟨hlow, hhigh⟩ := isDigit_iff.1 h
  exact isNumberBlank_eq_false (by omega) (by omega)

theorem unsigned_minus {r : List Char} (h : ∀ c ∈ r, c.isDigit = true) : unsigned ('-' :: r) = (true, r) := by
  have htrim : trim isNumberBlank ('-' :: r) = '-' :: r :=
    trim_eq_self (List.forall_mem_cons.2 ⟨rfl, fun c hc => isNumberBlank_of_isDigit (h c hc)⟩)
  rw [unsigned, htrim]
  rfl

/-- No digit is a sign. -/
theorem unsigned_of_isDigit {r : List Char} (h : ∀ c ∈ r, c.isDigit = true) : unsigned r = (false, r) := by
  have htrim : trim isNumberBlank r = r := trim_eq_self fun c hc => isNumberBlank_of_isDigit (h c hc)
  rw [unsigned, htrim]
  split
  case h_1 => cases h '-' List.mem_cons_self
  case h_2 => cases h '+' List.mem_cons_self
  case h_3 => rfl

theorem unsigned_decimal (n : Int) : unsigned (decimal n) = (decide (n < 0), Nat.toDigits 10 n.natAbs) := by
  have hdigits : ∀ c ∈ Nat.toDigits 10 n.natAbs, c.isDigit = true := fun _ => isDigit_of_mem_toDigits
  rw [decimal]
  by_cases hn : n < 0
  · rw [if_pos hn, List.singleton_append, unsigned_minus hdigits, decide_eq_true hn]
  · rw [if_neg hn, List.nil_append, unsigned_of_isDigit hdigits, decide_eq_false hn]

theorem readInteger?_eq (cs : List Char) : readInteger? cs =
    (readDigits? (unsigned cs).2).map fun m : Nat => if (unsigned cs).1 = true then -(m : Int) else m := by
  rw [readInteger?, signed?]
  dsimp only
  cases readDigits? (unsigned cs).2 <;> rfl

/-- A number is read back from its decimal text, unless it has too many digits. -/
theorem readInteger?_decimal {n : Int} (h : (Nat.toDigits 10 n.natAbs).length ≤ digitLimit) :
    readInteger? (decimal n) = some n := by
  rw [readInteger?_eq, unsigned_decimal, readDigits?_toDigits h]
  simp only [Option.map_some, decide_eq_true_eq, Option.some.injEq]
  split <;> omega

theorem readDigits?_eq_some {cs : List Char} {n : Nat} (hcs : ∀ c ∈ cs, c.isDigit = true)
    (h : readDigits? cs = some n) : n = Nat.ofDigitChars 10 cs 0 := by
  rw [readDigits?] at h
  split at h
  · cases h
  · rw [ofDigits?_of_isDigit hcs] at h
    exact (Option.some.inj h).symm

/-- A minus in front of digits makes a number below zero, unless all of them are zeros. -/
theorem readInteger?_minus {cs : List Char} {n : Int} (hcs : ∀ c ∈ cs, c.isDigit = true)
    (h : readInteger? ('-' :: cs) = some n) : n < 0 ↔ ∃ c ∈ cs, c ≠ '0' := by
  rw [readInteger?_eq, unsigned_minus hcs] at h
  obtain ⟨m, hm, rfl⟩ := Option.map_eq_some_iff.1 h
  obtain rfl := readDigits?_eq_some hcs hm
  rw [if_pos rfl]
  have hpos : -(Nat.ofDigitChars 10 cs 0 : Int) < 0 ↔ ¬ Nat.ofDigitChars 10 cs 0 = 0 := by omega
  rw [hpos, ofDigitChars_eq_zero_iff hcs]
  simp

theorem readInteger?_nonneg {cs : List Char} {n : Int} (hcs : ∀ c ∈ cs, c.isDigit = true)
    (h : readInteger? cs = some n) : 0 ≤ n := by
  rw [readInteger?_eq, unsigned_of_isDigit hcs] at h
  obtain ⟨m, -, rfl⟩ := Option.map_eq_some_iff.1 h
  exact Int.natCast_nonneg m

/-! ### Numbers that can be written -/

theorem isWritable_of_lt_pow {n : Int} {k : Nat} (h : n.natAbs < 10 ^ k) (hk : k ≤ digitLimit) :
    isWritable n = true :=
  decide_eq_true (h.trans_le (Nat.pow_le_pow_right (by decide) hk))

end TrialLedger.Text
