import TrialLedger.Proofs.Fixture.Failures
import TrialLedger.Proofs.Fixture.Literal

/-! Amounts beside bytes. A numeral is read as an amount by itself, and every other value by the number that its
bytes make. Both ways come to one number, whatever zeros and separators the numeral has. A number below zero has
bytes and is no amount. -/

namespace TrialLedger.Fixture

open Codec

variable {ctx : Context} {path : Text}

/-! ### Numbers below zero -/

/-- The text spells a number below zero: a minus, a digit, then digits, commas and low lines, and not every digit
is a zero. -/
def SpellsNegative (s : String) : Prop :=
  ∃ d r, s.toList = '-' :: d :: r ∧ d.isDigit = true ∧ (∀ c ∈ r, c.isDigit = true ∨ c = ',' ∨ c = '_') ∧
    ∃ c ∈ d :: r, c.isDigit = true ∧ c ≠ '0'

/-- The value is a number below zero or spells one, and is told of as such. -/
inductive Negative : Json → Flaw → Prop
  | int {n : Int} (hn : n < 0) : Negative (.int n) (.negativeNumber n)
  | text {s : String} (hs : SpellsNegative s) : Negative (.text s) (.negativeText s)

theorem Negative.unique {j : Json} {flaw flaw' : Flaw} (h : Negative j flaw) (h' : Negative j flaw') :
    flaw = flaw' := by
  cases h <;> cases h' <;> rfl

theorem isUnsignedNumeral_iff {cs : List Char} : isUnsignedNumeral cs = true ↔
    ∃ d r, cs = d :: r ∧ d.isDigit = true ∧ ∀ c ∈ r, c.isDigit = true ∨ c = ',' ∨ c = '_' := by
  have hdigit : ∀ c, isAsciiDigit c = c.isDigit := fun _ => rfl
  cases cs with
  | nil => simp [isUnsignedNumeral]
  | cons d r => simp [isUnsignedNumeral, hdigit, or_assoc]

/-- What is left of a numeral without its separators are its digits. -/
theorem mem_filter_separators {cs : List Char} (h : isUnsignedNumeral cs = true) {c : Char} :
    c ∈ cs.filter (fun c => c != ',' && c != '_') ↔ c ∈ cs ∧ c.isDigit = true := by
  obtain ⟨d, r, rfl, hd, hr⟩ := isUnsignedNumeral_iff.1 h
  rw [List.mem_filter, Bool.and_eq_true, bne_iff_ne, bne_iff_ne]
  refine and_congr_right fun hc => ⟨fun ⟨hcomma, hline⟩ => ?_, fun hdigit => ?_⟩
  · rcases List.mem_cons.1 hc with rfl | hc
    · exact hd
    · exact (hr c hc).resolve_right (not_or.2 ⟨hcomma, hline⟩)
  · constructor <;> rintro rfl <;> cases hdigit

theorem readInteger?_of_number {s : String} {n : Int} (h : number path s = .ok n) :
    Text.readInteger? (s.toList.filter fun c => c != ',' && c != '_') = some n := by
  rw [number, number?] at h
  cases hread : Text.readInteger? (s.toList.filter fun c => c != ',' && c != '_') with
  | none =>
    rw [hread] at h
    cases h
  | some m =>
    rw [hread] at h
    exact congrArg some (Except.ok.inj h)

theorem number_neg_iff {s : String} {n : Int} (hs : isNumeral s.toList = true) (h : number path s = .ok n) :
    n < 0 ↔ SpellsNegative s := by
  have hread := readInteger?_of_number h
  rw [isNumeral.eq_def] at hs
  split at hs
  · rename_i r heq
    rw [heq, List.filter_cons_of_pos (by decide)] at hread
    rw [Text.readInteger?_minus (fun c hc => ((mem_filter_separators hs).1 hc).2) hread, SpellsNegative, heq]
    obtain ⟨d, r, rfl, hd, hr⟩ := isUnsignedNumeral_iff.1 hs
    simp only [mem_filter_separators hs]
    constructor
    · rintro ⟨c, ⟨hc, hdigit⟩, hzero⟩
      exact ⟨d, r, rfl, hd, hr, c, hc, hdigit, hzero⟩
    · rintro ⟨_, _, ⟨⟩, -, -, c, hc, hdigit, hzero⟩
      exact ⟨c, ⟨hc, hdigit⟩, hzero⟩
  · rename_i hminus
    have hnonneg := Text.readInteger?_nonneg (fun c hc => ((mem_filter_separators hs).1 hc).2) hread
    refine iff_of_false (by omega) ?_
    rintro ⟨d, r, heq, -⟩
    exact hminus _ heq

/-! ### Texts -/

/-- A text that holds a numeral between blanks is no literal, unless there are no blanks. -/
theorem isNumeral_of_readBytes {s : String} {b : Bytes} (h : readBytes ctx path (.text s) = .ok b)
    (htrim : isNumeral (Text.trim Text.isBlank s.toList) = true) : isNumeral s.toList = true := by
  have hplain : ∀ c ∈ s.toList, isPlainChar c = true := by
    intro c hc
    have htrimmed : c ∈ Text.trim Text.isBlank s.toList ∨ Text.isBlank c = true := Text.mem_trim hc
    rcases htrimmed with hmem | hblank
    · rw [isPlainChar, isNumeralChar_of_mem htrim c hmem, Bool.true_or]
    · rw [isPlainChar, hblank, Bool.or_true]
  have hbar : .char '|' ∉ (s : Text).points := fun hmem => absurd (hplain _ (char_mem_points.1 hmem)) (by decide)
  have hne : s ≠ "" := by
    rintro rfl
    cases htrim
  rw [readBytes_text ctx path hbar, literal_of_isPlainChar ctx path hplain hne] at h
  by_contra hnumeral
  rw [if_neg hnumeral] at h
  cases h

theorem isBlank_of_isNumeralChar {c : Char} (h : isNumeralChar c = true) : Text.isBlank c = false := by
  have hrange : 0x2c ≤ c.toNat ∧ c.toNat ≤ 0x5f := by
    rw [isNumeralChar, Bool.or_eq_true, Bool.or_eq_true, Bool.or_eq_true, beq_iff_eq, beq_iff_eq, beq_iff_eq] at h
    rcases h with ((hdigit | rfl) | rfl) | rfl
    · obtain ⟨hlow, hhigh⟩ := Text.isDigit_iff.1 hdigit
      omega
    all_goals decide
  simp only [Text.isBlank, Bool.or_eq_false_iff, Bool.and_eq_false_iff, decide_eq_false_iff_not, beq_eq_false_iff_ne]
  omega

theorem trim_of_isNumeral {cs : List Char} (h : isNumeral cs = true) : Text.trim Text.isBlank cs = cs :=
  Text.trim_eq_self fun c hc => isBlank_of_isNumeralChar (isNumeralChar_of_mem h c hc)

theorem SpellsNegative.isNumeral {s : String} (h : SpellsNegative s) : isNumeral s.toList = true := by
  obtain ⟨d, r, hs, hd, hr, -⟩ := h
  rw [hs, Fixture.isNumeral]
  exact isUnsignedNumeral_iff.2 ⟨d, r, rfl, hd, hr⟩

theorem toNat_encodeInt {n : Int} (h : 0 ≤ n) : (encodeInt n).toNat = n.toNat := by
  rw [encodeInt, if_neg (Int.not_lt.2 h)]
  exact decodeUnsigned_encodeNat _

/-- A text whose bytes can be read is read as the number that they make, unless it spells a number below zero. -/
theorem readAmount_text {s : String} {b : Bytes} (h : readBytes ctx path (.text s) = .ok b) :
    SpellsNegative s ∧ readAmount ctx path (.text s) = misread path (.negativeText s) ∨
      ¬ SpellsNegative s ∧ readAmount ctx path (.text s) = .ok b.toNat := by
  rw [readAmount, textAmount]
  by_cases htrim : isNumeral (Text.trim Text.isBlank s.toList) = true
  · have hs := isNumeral_of_readBytes h htrim
    have hbar : .char '|' ∉ (s : Text).points := fun hmem =>
      absurd (isNumeralChar_of_mem hs _ (char_mem_points.1 hmem)) (by decide)
    rw [readBytes_text ctx path hbar, literal_of_isNumeral ctx path hs] at h
    cases hn : number path s with
    | error e =>
      rw [hn] at h
      cases h
    | ok n =>
      rw [hn] at h
      obtain rfl : encodeInt n = b := Except.ok.inj h
      have hnumeral : numeral? s = some (s : Text) := by
        rw [numeral?, trim_of_isNumeral hs, if_pos hs, String.ofList_toList]
      simp only [hnumeral, hn]
      rw [← number_neg_iff hs hn]
      by_cases hneg : n < 0
      · exact .inl ⟨hneg, if_pos hneg⟩
      · rw [toNat_encodeInt (Int.not_lt.1 hneg)]
        exact .inr ⟨hneg, if_neg hneg⟩
  · have hnumeral : numeral? s = none := if_neg htrim
    simp only [hnumeral, h]
    refine .inr ⟨fun hneg => htrim ?_, rfl⟩
    rw [trim_of_isNumeral hneg.isNumeral]
    exact hneg.isNumeral

/-! ### Any value -/

/-- A ragged text is no numeral. -/
theorem readAmount_ragged {t : Ragged} {b : Bytes} (h : readBytes ctx path (.text (.ragged t)) = .ok b) :
    readAmount ctx path (.text (.ragged t)) = .ok b.toNat := by
  rw [readAmount, h]
  rfl

theorem readAmount_of_readBytes {j : Json} {b : Bytes} (h : readBytes ctx path j = .ok b) :
    (∃ flaw, Negative j flaw ∧ ∃ e, readAmount ctx path j = .error e ∧
      (j.isWritable = true → e = .misread path flaw)) ∨
      (∀ flaw, ¬ Negative j flaw) ∧ readAmount ctx path j = .ok b.toNat := by
  cases j with
  | null =>
    obtain rfl := Except.ok.inj h
    refine .inr ⟨fun flaw hneg => ?_, rfl⟩
    cases hneg
  | int n =>
    obtain rfl : encodeInt n = b := Except.ok.inj h
    rw [readAmount]
    by_cases hn : 0 ≤ n
    · rw [if_pos hn, toNat_encodeInt hn]
      refine .inr ⟨?_, rfl⟩
      rintro _ ⟨hneg⟩
      exact Int.not_lt.2 hn hneg
    · rw [if_neg hn]
      refine .inl ⟨_, .int (Int.not_le.1 hn), ?_⟩
      by_cases hwritable : Text.isWritable n = true
      · exact ⟨_, if_pos hwritable, fun _ => rfl⟩
      · exact ⟨_, if_neg hwritable, fun h => absurd h hwritable⟩
  | text t =>
    cases t with
    | plain s =>
      rcases readAmount_text h with ⟨hneg, hread⟩ | ⟨hnonneg, hread⟩
      · exact .inl ⟨_, .text hneg, _, hread, fun _ => rfl⟩
      · refine .inr ⟨?_, hread⟩
        rintro _ ⟨⟩
        exact hnonneg ‹_›
    | ragged t =>
      refine .inr ⟨fun flaw hneg => ?_, readAmount_ragged h⟩
      cases hneg
  | bool _ | list _ =>
    refine .inr ⟨fun flaw hneg => ?_, congrArg (Except.map Bytes.toNat) h⟩
    cases hneg
  | float _ | object _ => cases h

/-- A value is the same number as an amount and as bytes. Where its bytes are read, the number that they make is its
amount, and its number of eight bytes unless it has more of them; only a number below zero has bytes and neither an
amount nor eight bytes. What is wrong with a number is told if the number is short enough to be written, as all
numbers of a JSON text are (`Json.isWritable_of_parse`). -/
theorem amount_agrees_with_bytes {j : Json} {b : Bytes} (h : readBytes ctx path j = .ok b) :
    (∀ flaw, Negative j flaw → ∃ e, readAmount ctx path j = .error e ∧ readU64 ctx path j = .error e ∧
      (j.isWritable = true → e = .misread path flaw)) ∧
    ((∀ flaw, ¬ Negative j flaw) →
      readAmount ctx path j = .ok b.toNat ∧
      (b.toNat < 2 ^ 64 → readU64 ctx path j = .ok b.toNat) ∧
      (2 ^ 64 ≤ b.toNat → ∃ e, readU64 ctx path j = .error e ∧
        (Text.isWritable b.toNat = true → e = .misread path (.beyondU64 b.toNat)))) := by
  rw [readU64_eq]
  rcases readAmount_of_readBytes h with ⟨flaw, hneg, e, hread, htold⟩ | ⟨hnonneg, hread⟩
  · rw [hread]
    refine ⟨fun flaw' hneg' => ?_, fun hnonneg => absurd hneg (hnonneg flaw)⟩
    obtain rfl := hneg.unique hneg'
    exact ⟨e, rfl, rfl, htold⟩
  · rw [hread]
    refine ⟨fun flaw hneg => absurd hneg (hnonneg flaw), fun _ => ⟨rfl, fun hfits => if_pos hfits, fun hlarge => ?_⟩⟩
    change ∃ e, fitted path b.toNat = .error e ∧ _
    rw [fitted, if_neg (Nat.not_lt.2 hlarge)]
    by_cases hwritable : Text.isWritable b.toNat = true
    · exact ⟨_, if_pos hwritable, fun _ => rfl⟩
    · exact ⟨_, if_neg hwritable, fun h => absurd h hwritable⟩

/-- A number below zero spells bytes by itself and in a list, and the list is an amount. -/
theorem amount_agrees_with_bytes_signed :
    readBytes {} "sum" (.text "-0,07") = .ok [249] ∧
      readAmount {} "sum" (.text "-0,07") = misread "sum" (.negativeText "-0,07") ∧
      readBytes {} "sum" (.list [.text "-0,07", .bool true]) = .ok [249, 1] ∧
      readAmount {} "sum" (.list [.text "-0,07", .bool true]) = .ok 63745 ∧
      readU64 {} "sum" (.list [.text "-0,07", .bool true]) = .ok 63745 := by
  have halone : readBytes {} "sum" (.text "-0,07") = .ok [249] := rfl
  have hlisted : readBytes {} "sum" (.list [.text "-0,07", .bool true]) = .ok [249, 1] := rfl
  have hneg : Negative (.text "-0,07") (.negativeText "-0,07") :=
    .text ⟨'0', [',', '0', '7'], by simp, rfl, by simp, '7', by simp, rfl, by simp⟩
  obtain ⟨e, hamount, -, htold⟩ := (amount_agrees_with_bytes halone).1 _ hneg
  obtain rfl := htold rfl
  obtain ⟨hlist, hfits, -⟩ := (amount_agrees_with_bytes hlisted).2 nofun
  exact ⟨halone, hamount, hlisted, hlist, hfits (by decide)⟩

end TrialLedger.Fixture
