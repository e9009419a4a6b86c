import Mathlib
import TrialLedger.Bytes

/-! Byte strings as numbers, in base sixteen and in order. Bytes are the digits of the number that they
spell, with and without a sign, so byte strings of one length differ in their numbers. Two digits
for each byte in base sixteen read back as the byte, so these digits determine the bytes as well. -/

namespace TrialLedger.Bytes

/-! ### Big-endian numbers -/

theorem toNat_append (a b : Bytes) : toNat (a ++ b) = 256 ^ b.length * toNat a + toNat b := by
  induction b using List.reverseRecOn with
  | nil => simp [toNat_nil]
  | append_singleton b x ih =>
    rw [← List.append_assoc, toNat_append_singleton, toNat_append_singleton, ih, List.length_append,
      List.length_singleton, Nat.pow_succ']
    ring

theorem toNat_cons (x : UInt8) (b : Bytes) : toNat (x :: b) = 256 ^ b.length * x.toNat + toNat b := by
  have hx : toNat [x] = x.toNat := by simp [toNat]
  rw [← List.singleton_append, toNat_append, hx]

theorem toNat_lt (b : Bytes) : toNat b < 256 ^ b.length := by
  induction b using List.reverseRecOn with
  | nil => exact Nat.one_pos
  | append_singleton b x ih =>
    have hx : x.toNat < 256 := x.toNat_lt
    rw [toNat_append_singleton, List.length_append, List.length_singleton, Nat.pow_succ']
    omega

/-- Bytes are the digits of their number. -/
theorem ofNat_toNat (b : Bytes) : ofNat b.length (toNat b) = b := by
  induction b using List.reverseRecOn with
  | nil => rfl
  | append_singleton b x ih =>
    have hx : x.toNat < 256 := x.toNat_lt
    have hhigh : (256 * toNat b + x.toNat) / 256 = toNat b := by omega
    have hlow : (256 * toNat b + x.toNat) % 256 = x.toNat := by omega
    rw [toNat_append_singleton, List.length_append, List.length_singleton, ofNat, hhigh, hlow, ih,
      UInt8.ofNat_toNat]

theorem bitSize_le_iff {n k : Nat} : bitSize n ≤ k ↔ n < 2 ^ k := by
  unfold bitSize
  split
  · subst n
    simp
  · rw [Nat.succ_le_iff, Nat.log2_lt ‹_›]

/-- As many bytes as the width, and no fewer, have room for a number. -/
theorem width_le_iff {n w : Nat} : width n ≤ w ↔ n < 256 ^ w := by
  have hbits : width n ≤ w ↔ bitSize n ≤ 8 * w := by
    unfold width
    omega
  rw [hbits, bitSize_le_iff, Nat.pow_mul]

theorem lt_pow_width (n : Nat) : n < 256 ^ width n := width_le_iff.1 (Nat.le_refl _)

/-! ### Two's complement -/

/-- The numbers that so many bytes can hold in two's complement. -/
def FitsSigned (w : Nat) (v : Int) : Prop := -256 ^ w ≤ 2 * v ∧ 2 * v < 256 ^ w

/-- The first bit is the sign. -/
theorem two_mul_toNat_cons_lt {x : UInt8} {r : Bytes} : 2 * toNat (x :: r) < 256 ^ (r.length + 1) ↔ x < 128 := by
  have hrest := toNat_lt r
  rw [toNat_cons, Nat.pow_succ', UInt8.lt_iff_toNat_lt]
  constructor
  · intro h
    by_contra hn
    have := Nat.mul_le_mul_left (256 ^ r.length) (Nat.le_of_not_lt hn)
    change 256 ^ r.length * 128 ≤ _ at this
    omega
  · intro h
    have := Nat.mul_le_mul_left (256 ^ r.length) (Nat.le_of_lt_succ h)
    omega

/-- Of the numbers that end in the same digits, bytes spell the one that is next to zero. -/
theorem toInt_eq_bmod (b : Bytes) : toInt b = Int.bmod (toNat b) (256 ^ b.length) := by
  have hlt := toNat_lt b
  have hmod : (toNat b : Int) % (256 ^ b.length : Nat) = toNat b := Int.emod_eq_of_lt (by omega) (by omega)
  rw [Int.bmod_def, hmod]
  cases b with
  | nil => rfl
  | cons x r =>
    have hsign : (toNat (x :: r) : Int) < ((256 ^ (x :: r).length : Nat) + 1) / 2 ↔ x < 128 := by
      rw [← two_mul_toNat_cons_lt (r := r), List.length_cons, Nat.pow_succ']
      omega
    simp only [toInt, hsign]
    push_cast
    rfl

theorem fitsSigned_toInt (b : Bytes) : FitsSigned b.length (toInt b) := by
  have hpos : 0 < 256 ^ b.length := Nat.pow_pos (by decide)
  have hlow := Int.le_bmod (x := toNat b) hpos
  have hhigh := Int.bmod_lt (x := toNat b) hpos
  rw [← toInt_eq_bmod] at hlow hhigh
  push_cast at hlow hhigh
  constructor <;> omega

/-- A number is read back from its digits where it fits. -/
theorem toInt_ofInt {w : Nat} {v : Int} (h : FitsSigned w v) : toInt (ofInt w v) = v := by
  have hdigits : (toNat (ofInt w v) : Int) = v % (256 ^ w : Nat) := by
    have hpos : (0 : Int) < (256 ^ w : Nat) := by positivity
    have hnonneg := Int.emod_nonneg v hpos.ne'
    have hlt := Int.emod_lt_of_pos v hpos
    have hcast : (256 : Int) ^ w = (256 ^ w : Nat) := by push_cast; rfl
    rw [ofInt, hcast, toNat_ofNat, Nat.mod_eq_of_lt (by omega), Int.toNat_of_nonneg hnonneg]
  rw [toInt_eq_bmod, length_ofInt, hdigits, Int.emod_bmod]
  obtain ⟨hlow, hhigh⟩ := h
  exact Int.bmod_eq_of_le_mul_two (by push_cast; omega) (by push_cast; omega)

/-- Bytes are the digits of the number that they spell. -/
theorem ofInt_toInt (b : Bytes) : ofInt b.length (toInt b) = b := by
  have hlt := toNat_lt b
  have hmod : toInt b % 256 ^ b.length = toNat b := by
    have h : toInt b % (256 ^ b.length : Nat) = toNat b := by
      rw [toInt_eq_bmod, Int.bmod_emod, Int.emod_eq_of_lt (by omega) (by omega)]
    exact_mod_cast h
  rw [ofInt, hmod, Int.toNat_natCast, ofNat_toNat]

/-- As many bytes as the signed width, and no fewer but none, have room for a number. -/
theorem signedWidth_le_iff {v : Int} {w : Nat} (hw : 0 < w) : signedWidth v ≤ w ↔ FitsSigned w v := by
  obtain ⟨k, rfl⟩ : ∃ k, w = k + 1 := ⟨w - 1, by omega⟩
  have hpow : 256 ^ (k + 1) = 2 * 2 ^ (8 * k + 7) := by
    calc 256 ^ (k + 1) = 2 ^ (8 * (k + 1)) := (Nat.pow_mul 2 8 (k + 1)).symm
      _ = 2 * 2 ^ (8 * k + 7) := Nat.pow_succ'
  have hbits : ∀ m, bitSize m / 8 + 1 ≤ k + 1 ↔ m < 2 ^ (8 * k + 7) := by
    intro m
    rw [← bitSize_le_iff]
    omega
  have hpow' : (256 : Int) ^ (k + 1) = 2 * 2 ^ (8 * k + 7) := by exact_mod_cast hpow
  rw [signedWidth, hbits, FitsSigned, hpow']
  have hcast : ((2 ^ (8 * k + 7) : Nat) : Int) = 2 ^ (8 * k + 7) := by push_cast; rfl
  rw [← hcast]
  split <;> omega

/-! ### Hexadecimal -/

theorem hexValue?_hexDigit {n : Nat} (h : n < 16) : hexValue? (hexDigit n) = some n := by
  interval_cases n <;> rfl

/-- The last digit of a number is read back. -/
theorem hexValue?_hexDigit_mod (n : Nat) : hexValue? (hexDigit (n % 16)) = some (n % 16) :=
  hexValue?_hexDigit (Nat.mod_lt n (by decide))

theorem isHexBlank_hexDigit {n : Nat} (h : n < 16) : isHexBlank (hexDigit n) = false := by
  interval_cases n <;> rfl

/-- The digits are none but these. -/
theorem mem_hexChars {b : Bytes} {c : Char} (h : c ∈ b.hexChars) : ∃ n < 16, c = hexDigit n := by
  obtain ⟨x, -, hc⟩ := List.mem_flatMap.1 h
  have hx : x.toNat < 256 := x.toNat_lt
  rcases List.mem_pair.1 hc with rfl | rfl
  · exact ⟨_, by omega, rfl⟩
  · exact ⟨_, by omega, rfl⟩

/-- Lower case is kept, and upper case is 32 places below it. -/
theorem toLower_cases (c : Char) :
    c.toLower = c ∨ 65 ≤ c.toNat ∧ c.toNat ≤ 90 ∧ c.toLower.toNat = c.toNat + 32 := by
  unfold Char.toLower
  split
  · rename_i h
    obtain ⟨hlow, hhigh⟩ := h
    have hlow' : 65 ≤ c.val.toNat := UInt32.le_iff_toNat_le.1 hlow
    have hhigh' : c.val.toNat ≤ 90 := UInt32.le_iff_toNat_le.1 hhigh
    refine .inr ⟨hlow', hhigh', ?_⟩
    change (c.val + 32).toNat = c.val.toNat + 32
    rw [UInt32.toNat_add]
    exact Nat.mod_eq_of_lt (by change c.val.toNat + 32 < 2 ^ 32; omega)
  · exact .inl rfl

/-- A digit has one value in both cases. -/
theorem hexValue?_of_toLower {c : Char} {n : Nat} (hn : n < 16) (h : c.toLower = hexDigit n) :
    hexValue? c = some n ∧ isHexBlank c = false := by
  rcases toLower_cases c with hc | ⟨hlow, hhigh, hc⟩
  · rw [← hc, h]
    exact ⟨hexValue?_hexDigit hn, isHexBlank_hexDigit hn⟩
  · have hdigit : (hexDigit n).toNat = if n < 10 then n + 48 else n + 87 := by
      interval_cases n <;> rfl
    rw [h, hdigit] at hc
    have hten : 10 ≤ n := by
      by_contra hlt
      rw [if_pos (Nat.not_le.1 hlt)] at hc
      omega
    rw [if_neg (Nat.not_lt.2 hten)] at hc
    obtain rfl : c = Char.ofNat (n + 55) := by
      rw [show n + 55 = c.toNat by omega, Char.ofNat_toNat]
    interval_cases n <;> exact ⟨rfl, rfl⟩

/-- Bytes are read back from their digits in any case. -/
theorem ofHexChars?_of_toLower {b : Bytes} {cs : List Char} (h : cs.map Char.toLower = b.hexChars) :
    ofHexChars? cs = some b := by
  induction b generalizing cs with
  | nil =>
    obtain rfl := List.map_eq_nil_iff.1 h
    rfl
  | cons x b ih =>
    have hx : x.toNat < 256 := x.toNat_lt
    change cs.map Char.toLower = hexDigit (x.toNat / 16) :: hexDigit (x.toNat % 16) :: hexChars b at h
    obtain ⟨c, r, rfl, hc, hr⟩ := List.map_eq_cons_iff.1 h
    obtain ⟨d, r, rfl, hd, hr⟩ := List.map_eq_cons_iff.1 hr
    obtain ⟨hhigh, hblank⟩ := hexValue?_of_toLower (by omega) hc
    obtain ⟨hlow, -⟩ := hexValue?_of_toLower (by omega) hd
    have hhalves : UInt8.ofNat (16 * (x.toNat / 16) + x.toNat % 16) = x := by
      rw [Nat.div_add_mod, UInt8.ofNat_toNat]
    rw [ofHexChars?, hblank, hhigh, hlow, ih hr]
    exact congrArg (fun y => some (y :: b)) hhalves

/-- Bytes are read back from their digits. -/
theorem ofHexChars?_hexChars (b : Bytes) : ofHexChars? b.hexChars = some b := by
  have hlower : ∀ n < 16, (hexDigit n).toLower = hexDigit n := by
    intro n hn
    interval_cases n <;> rfl
  refine ofHexChars?_of_toLower ((List.map_congr_left fun c hc => ?_).trans (List.map_id _))
  obtain ⟨n, hn, rfl⟩ := mem_hexChars hc
  exact hlower n hn

theorem hex_inj {a b : Bytes} (h : a.hex = b.hex) : a = b := by
  have hchars : a.hexChars = b.hexChars := by simpa [hex] using congrArg String.toList h
  exact Option.some.inj (by rw [← ofHexChars?_hexChars a, hchars, ofHexChars?_hexChars])

/-! ### Order -/

/-- The order of byte strings is that of lists of bytes. -/
theorem le_iff {a b : Bytes} : a.le b = true ↔ a ≤ b := by
  induction a generalizing b with
  | nil => simp [le]
  | cons x a ih =>
    cases b with
    | nil => simp [le]
    | cons y b =>
      rw [le, List.cons_le_cons_iff]
      by_cases h : x = y
      · simp [h, ih]
      · simp [h]

theorem lt_iff {a b : Bytes} : a.lt b = true ↔ a < b := by
  rw [lt, Bool.and_eq_true, bne_iff_ne, le_iff, List.le_iff_lt_or_eq]
  refine ⟨fun ⟨hne, h⟩ => h.resolve_right hne, fun h => ⟨?_, .inl h⟩⟩
  rintro rfl
  exact List.lt_irrefl a h

end TrialLedger.Bytes
