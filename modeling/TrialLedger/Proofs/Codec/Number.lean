import TrialLedger.Codec
import TrialLedger.Proofs.Bytes

/-! Numbers and their encodings. The encoding of a number is the shortest byte string that reads back as it,
so a byte string is an encoding exactly when its first byte cannot be left out. In a fixed width a number
is encoded when it fits, and refused otherwise. -/

namespace TrialLedger.Codec

open Bytes

/-! ### Shortest encodings -/

/-- The bytes spell the value, and all others that do so are longer. -/
def IsShortest {α : Type} (decode : Bytes → α) (a : α) (b : Bytes) : Prop :=
  decode b = a ∧ ∀ c, decode c = a → c ≠ b → b.length < c.length

section Shortest

variable {α : Type} {decode : Bytes → α} {a : α} {b e : Bytes}

/-- Where no two byte strings of one length spell the same, it is enough that no shorter one spells the value. -/
theorem isShortest_of_le (hinj : ∀ c d : Bytes, c.length = d.length → decode c = decode d → c = d)
    (hb : decode b = a) (hle : ∀ c, decode c = a → b.length ≤ c.length) : IsShortest decode a b := by
  refine ⟨hb, fun c hc hne => lt_of_le_of_ne (hle c hc) fun hlength => hne ?_⟩
  exact hinj c b hlength.symm (hc.trans hb.symm)

/-- Bytes are the shortest that spell their value exactly when these are no shorter. -/
theorem IsShortest.eq_iff (he : IsShortest decode (decode b) e) : e = b ↔ b.length ≤ e.length := by
  constructor
  · rintro rfl
    exact Nat.le_refl _
  · intro hle
    by_contra hne
    exact absurd (he.2 b rfl (Ne.symm hne)) (Nat.not_lt.2 hle)

end Shortest

/-! ### Numbers without a sign -/

theorem decodeUnsigned_encodeNat (n : Nat) : decodeUnsigned (encodeNat n) = n := by
  rw [decodeUnsigned, encodeNat, toNat_ofNat, Nat.mod_eq_of_lt (lt_pow_width n)]

theorem encodeNat_isShortest (n : Nat) : IsShortest decodeUnsigned n (encodeNat n) := by
  refine isShortest_of_le (fun c d hlength h => ?_) (decodeUnsigned_encodeNat n) fun c hc => ?_
  · rw [← ofNat_toNat c, ← ofNat_toNat d, hlength]
    exact congrArg _ h
  · subst hc
    rw [encodeNat, length_ofNat, width_le_iff]
    exact toNat_lt c

/-- The first byte counts exactly when it is not zero. -/
theorem encodeNat_decodeUnsigned {b : Bytes} : encodeNat (decodeUnsigned b) = b ↔ b.head? ≠ some 0 := by
  rw [(encodeNat_isShortest _).eq_iff, encodeNat, length_ofNat]
  cases b with
  | nil => simp
  | cons x r =>
    have hrest := toNat_lt r
    have hzero : toNat (x :: r) < 256 ^ r.length ↔ x = 0 := by
      rw [toNat_cons, UInt8.toNat_inj.symm]
      constructor
      · intro h
        by_contra hn
        have := Nat.mul_le_mul_left (256 ^ r.length) (Nat.one_le_iff_ne_zero.2 hn)
        omega
      · intro h
        rw [h]
        simpa using hrest
    rw [List.length_cons, Nat.succ_le_iff, ← Nat.not_le, decodeUnsigned, width_le_iff, hzero]
    simp

/-! ### Numbers with a sign -/

theorem encodeSigned_of_ne {v : Int} (h : v ≠ 0) : encodeSigned v = ofInt (signedWidth v) v := if_neg h

/-- As many bytes as the encoding, and no fewer, have room for a number. -/
theorem length_encodeSigned_le_iff {v : Int} {w : Nat} : (encodeSigned v).length ≤ w ↔ FitsSigned w v := by
  by_cases hv : v = 0
  · subst hv
    have hpos : (0 : Int) < 256 ^ w := by positivity
    exact iff_of_true (Nat.zero_le w) ⟨by omega, by omega⟩
  · rw [encodeSigned_of_ne hv, length_ofInt]
    cases w with
    | zero =>
      refine iff_of_false ?_ fun h => ?_
      · unfold signedWidth
        omega
      · have hone : (256 : Int) ^ 0 = 1 := rfl
        obtain ⟨hlow, hhigh⟩ := h
        omega
    | succ w => exact signedWidth_le_iff w.succ_pos

theorem decodeSigned_encodeSigned (v : Int) : decodeSigned (encodeSigned v) = v := by
  by_cases hv : v = 0
  · subst hv
    rfl
  · have hfits := length_encodeSigned_le_iff.1 (Nat.le_refl (encodeSigned v).length)
    rw [encodeSigned_of_ne hv, length_ofInt] at hfits
    rw [encodeSigned_of_ne hv, decodeSigned, toInt_ofInt hfits]

theorem encodeSigned_isShortest (v : Int) : IsShortest decodeSigned v (encodeSigned v) := by
  refine isShortest_of_le (fun c d hlength h => ?_) (decodeSigned_encodeSigned v) fun c hc => ?_
  · rw [← ofInt_toInt c, ← ofInt_toInt d, hlength]
    exact congrArg _ h
  · subst hc
    exact length_encodeSigned_le_iff.2 (fitsSigned_toInt c)

/-- What bytes spell has room in those after the first when the first is only the sign of the others. -/
theorem fitsSigned_tail_iff {x : UInt8} {r : Bytes} : FitsSigned r.length (toInt (x :: r)) ↔
    x = 0 ∧ 2 * toNat r < 256 ^ r.length ∨ x = 255 ∧ 256 ^ r.length ≤ 2 * toNat r := by
  have hrest := toNat_lt r
  have hx : x.toNat < 256 := x.toNat_lt
  have hcast : (256 : Int) ^ r.length = (256 ^ r.length : Nat) := by push_cast; rfl
  rw [FitsSigned, toInt, Int.pow_succ, hcast, toNat_cons, ← UInt8.toNat_inj, ← UInt8.toNat_inj]
  change _ ↔ x.toNat = 0 ∧ _ ∨ x.toNat = 255 ∧ _
  generalize 256 ^ r.length = p at hrest ⊢
  -- The product with the first byte has a bound where the byte is positive, and one where it is below 255.
  have hpositive : x.toNat ≠ 0 → p ≤ p * x.toNat := fun h => Nat.le_mul_of_pos_right p (Nat.pos_of_ne_zero h)
  have hnegative : x.toNat ≠ 255 → p * x.toNat ≤ p * 254 := fun h => Nat.mul_le_mul_left p (by omega)
  split
  · have hsign : x.toNat < 128 := UInt8.lt_iff_toNat_lt.1 ‹_›
    by_cases hzero : x.toNat = 0
    · rw [hzero]
      omega
    · have := hpositive hzero
      omega
  · have hsign : 128 ≤ x.toNat := Nat.le_of_not_lt fun h => ‹¬ x < 128› (UInt8.lt_iff_toNat_lt.2 h)
    by_cases hfull : x.toNat = 255
    · rw [hfull]
      omega
    · have := hnegative hfull
      omega

/-- The first byte only repeats the sign that the second one has. -/
def RepeatsSign : Bytes → Prop
  | x :: y :: _ => x = 0 ∧ y < 128 ∨ x = 255 ∧ 128 ≤ y
  | _ => False

/-- The first byte counts unless it stands alone and is zero, or repeats the sign. -/
theorem encodeSigned_decodeSigned {b : Bytes} :
    encodeSigned (decodeSigned b) = b ↔ b = [] ∨ b ≠ [0] ∧ ¬ RepeatsSign b := by
  rw [(encodeSigned_isShortest _).eq_iff]
  cases b with
  | nil => simp
  | cons x r =>
    rw [List.length_cons, Nat.succ_le_iff, ← Nat.not_le, length_encodeSigned_le_iff, decodeSigned, fitsSigned_tail_iff]
    cases r with
    | nil => simp [RepeatsSign, toNat_nil]
    | cons y s =>
      rw [← Nat.not_lt, List.length_cons, two_mul_toNat_cons_lt, UInt8.not_lt]
      simp [RepeatsSign]

example : encodeSigned 127 = [127] ∧ encodeSigned 128 = [0, 128] ∧ encodeSigned (-128) = [128] := by decide

/-- As it is exchanged, a number has its shortest encoding, without a sign unless it is negative. -/
theorem encodeInt_isShortest (n : Int) :
    (0 ≤ n → encodeUnsigned n = .ok (encodeInt n) ∧ IsShortest (fun b => (decodeUnsigned b : Int)) n (encodeInt n)) ∧
      (n < 0 → encodeSigned n = encodeInt n ∧ IsShortest decodeSigned n (encodeInt n)) := by
  refine ⟨fun hn => ?_, fun hn => ?_⟩
  · obtain ⟨m, rfl⟩ := Int.eq_ofNat_of_zero_le hn
    have hshortest := encodeNat_isShortest m
    have hint : encodeInt m = encodeNat m := if_neg (Int.not_lt.2 hn)
    rw [hint, encodeUnsigned, if_neg (Int.not_lt.2 hn), Int.toNat_natCast]
    exact ⟨rfl, congrArg _ hshortest.1, fun c hc => hshortest.2 c (Int.ofNat.inj hc)⟩
  · have hint : encodeInt n = encodeSigned n := if_pos hn
    rw [hint]
    exact ⟨rfl, encodeSigned_isShortest n⟩

/-! ### The search for a length -/

/-- The search for a length in which a number fits. It tries one length after the other. -/
inductive Search (v : Int) : (length found : Nat) → Prop where
  | found {w : Nat} (h : FitsSigned w v) : Search v w w
  | longer {w w' : Nat} (h : ¬ FitsSigned w v) (hrest : Search v (w + 1) w') : Search v w w'

theorem Search.unique {v : Int} {w k k' : Nat} (h : Search v w k) (h' : Search v w k') : k = k' := by
  induction h with
  | found hfits =>
    cases h' with
    | found => rfl
    | longer hfits' => exact absurd hfits hfits'
  | longer hfits _ ih =>
    cases h' with
    | found hfits' => exact absurd hfits' hfits
    | longer _ hrest => exact ih hrest

/-- The search comes to an end, from any length but none up to the signed width. -/
theorem search_signedWidth {v : Int} {w : Nat} (hw : 0 < w) (hle : w ≤ signedWidth v) :
    Search v w (signedWidth v) := by
  -- The induction is on how far the width is away.
  obtain ⟨d, hd⟩ := Nat.exists_eq_add_of_le hle
  induction d generalizing w with
  | zero =>
    obtain rfl : w = signedWidth v := hd.symm
    exact .found ((signedWidth_le_iff hw).1 (Nat.le_refl _))
  | succ d ih =>
    refine .longer (fun hfits => ?_) (ih w.succ_pos (by omega) (by omega))
    have := (signedWidth_le_iff hw).2 hfits
    omega

/-! ### Fixed widths -/

/-- A number in so many bytes: if it fits there are bytes, and they spell it, and otherwise it is refused. -/
structure InWidth {ε : Type} (w : Nat) (v : Int) (fits : Prop) (decode : Bytes → Int) (refusal : ε)
    (r : Except ε Bytes) : Prop where
  succeeds : (∃ b, r = .ok b) ↔ fits
  spells : ∀ b, r = .ok b → b.length = w ∧ decode b = v
  refuses : ¬ fits → r = .error refusal

theorem InWidth.of_ok {ε : Type} {w : Nat} {v : Int} {fits : Prop} {decode : Bytes → Int} {refusal : ε} {b : Bytes}
    (hfits : fits) (hlength : b.length = w) (hb : decode b = v) : InWidth w v fits decode refusal (.ok b) := by
  refine ⟨iff_of_true ⟨b, rfl⟩ hfits, ?_, fun h => absurd hfits h⟩
  rintro _ ⟨⟩
  exact ⟨hlength, hb⟩

theorem InWidth.of_error {ε : Type} {w : Nat} {v : Int} {fits : Prop} {decode : Bytes → Int} {refusal : ε}
    (hfits : ¬ fits) : InWidth w v fits decode refusal (.error refusal) :=
  ⟨iff_of_false nofun hfits, nofun, fun _ => rfl⟩

theorem InWidth.mapError {ε ε' : Type} {w : Nat} {v : Int} {fits : Prop} {decode : Bytes → Int} {refusal : ε}
    {r : Except ε Bytes} (h : InWidth w v fits decode refusal r) (f : ε → ε') :
    InWidth w v fits decode (f refusal) (r.mapError f) := by
  by_cases hfits : fits
  · obtain ⟨b, rfl⟩ := h.succeeds.2 hfits
    obtain ⟨hlength, hb⟩ := h.spells b rfl
    exact .of_ok hfits hlength hb
  · rw [h.refuses hfits]
    exact .of_error hfits

theorem encodeFixedUnsigned_inWidth (w : Nat) (v : Int) :
    InWidth w v (0 ≤ v ∧ v < 256 ^ w) (fun b => decodeUnsigned b) (.unfit v false w) (encodeFixedUnsigned w v) := by
  have hwidth : ¬ (w : Int) < 0 := by omega
  unfold encodeFixedUnsigned
  rw [if_neg hwidth, Int.toNat_natCast]
  split_ifs with hneg hlarge
  · exact .of_error (by omega)
  · exact .of_error (by omega)
  · obtain ⟨n, rfl⟩ := Int.eq_ofNat_of_zero_le (Int.not_lt.1 hneg)
    have hlt : n < 256 ^ w := by exact_mod_cast Int.not_le.1 hlarge
    refine .of_ok (by omega) (length_ofNat w _) ?_
    rw [decodeUnsigned, Int.toNat_natCast, toNat_ofNat, Nat.mod_eq_of_lt hlt]

theorem encodeFixedSigned_inWidth {w : Nat} (hw : 0 < w) (v : Int) :
    InWidth w v (FitsSigned w v) decodeSigned (.unfit v true w) (encodeFixedSigned w v) := by
  have hwidth : ¬ (w : Int) ≤ 0 := by omega
  unfold encodeFixedSigned
  rw [if_neg hwidth, Int.toNat_natCast]
  split_ifs with hbeyond
  · refine .of_error fun hfits => ?_
    obtain ⟨hlow, hhigh⟩ := hfits
    omega
  · have hfits : FitsSigned w v := by
      constructor <;> omega
    exact .of_ok hfits (length_ofInt w v) (toInt_ofInt hfits)

/-- Encodings of numbers are the shortest byte strings that read back as these, so they are all byte strings whose
first byte counts. The search for the length of one with a sign comes to one end. In a fixed width numbers are
encoded and read back when they fit, and refused otherwise. -/
theorem number_encodings :
    (∀ v : Int, IsShortest decodeSigned v (encodeSigned v) ∧
      ∃! w, Search v 1 w ∧ (v ≠ 0 → encodeSigned v = ofInt w v)) ∧
    (∀ n : Nat, ∃ b, encodeUnsigned n = .ok b ∧ IsShortest decodeUnsigned n b) ∧
    (∀ b : Bytes, encodeUnsigned (decodeUnsigned b) = .ok b ↔ b.head? ≠ some 0) ∧
    (∀ b : Bytes, encodeSigned (decodeSigned b) = b ↔ b = [] ∨ b ≠ [0] ∧ ¬ RepeatsSign b) ∧
    ∀ w : Nat, 1 ≤ w → ∀ v : Int,
      InWidth w v (0 ≤ v ∧ v < 256 ^ w) (fun b => decodeUnsigned b) (.unfit v false w) (encodeFixedUnsigned w v) ∧
      InWidth w v (-256 ^ w ≤ 2 * v ∧ 2 * v < 256 ^ w) decodeSigned (.unfit v true w) (encodeFixedSigned w v) := by
  have hunsigned : ∀ n : Nat, encodeUnsigned n = .ok (encodeNat n) := fun n =>
    (if_neg (Int.not_lt.2 n.cast_nonneg)).trans rfl
  refine ⟨fun v => ⟨encodeSigned_isShortest v, signedWidth v, ⟨?_, encodeSigned_of_ne⟩, fun w hw => ?_⟩,
    fun n => ⟨_, hunsigned n, encodeNat_isShortest n⟩, fun b => ?_, fun b => encodeSigned_decodeSigned,
    fun w hw v => ⟨encodeFixedUnsigned_inWidth w v, encodeFixedSigned_inWidth hw v⟩⟩
  · exact search_signedWidth Nat.one_pos (Nat.le_add_left 1 _)
  · exact hw.1.unique (search_signedWidth Nat.one_pos (Nat.le_add_left 1 _))
  · rw [hunsigned, Except.ok.injEq, encodeNat_decodeUnsigned]

end TrialLedger.Codec
