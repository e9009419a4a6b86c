import Mathlib
import TrialLedger.Proofs.Codec.Nested
import TrialLedger.Proofs.Codec.Number
import TrialLedger.Proofs.Fixture.Place
import TrialLedger.Proofs.Text.Integer

/-! What literals stand for. Digits in base sixteen are bytes in either case. A number may be spelled with commas
and low lines among its digits; none of the words that open literals is made of the characters of a number,
so it is read as such, and encoded in its shortest form or in the width that a word asks for. -/

namespace TrialLedger.Fixture

open Codec Bytes

variable (ctx : Context) (path : Text)

/-! ### Literals in a text -/

theorem readBytes_text {t : Text} (h : .char '|' ∉ t.points) :
    readBytes ctx path (.text t) = literal ctx path t.points := by
  rw [readBytes, Text.fields_of_not_mem h, joined, joined]
  cases literal ctx path t.points with
  | error e => rfl
  | ok b => exact congrArg Except.ok (List.append_nil b)

theorem char_mem_points {c : Char} {s : String} : .char c ∈ (s : Text).points ↔ c ∈ s.toList := by
  simp [Text.points]

/-- A literal that is opened by a word. -/
theorem readBytes_append {word : String} {t : Text} (hword : '|' ∉ word.toList) (ht : .char '|' ∉ t.points) :
    readBytes ctx path (.text (word ++ t)) = literal ctx path ((word : Text).points ++ t.points) := by
  have hbar : .char '|' ∉ ((word : Text) ++ t).points := by
    rw [Text.points_append, List.mem_append, not_or]
    exact ⟨mt char_mem_points.1 hword, ht⟩
  rw [readBytes_text ctx path hbar, Text.points_append]

/-- None of the words that open literals begins with another one. -/
theorem opened?_word : ∀ o ∈ openings, ∀ r, opened? ((o.1 : Text).points ++ r) = some (o.2, .ofPoints r) := by
  simp only [openings, List.forall_mem_cons, List.not_mem_nil, false_imp_iff, implies_true, and_true]
  and_intros <;> exact fun r => rfl

/-- What a word opens is read as the word says. -/
theorem readBytes_opened : ∀ o ∈ openings, ∀ t : Text, .char '|' ∉ t.points →
    readBytes ctx path (.text (o.1 ++ t)) = o.2.read ctx path (o.1 ++ t) t := by
  have hwords : ∀ o ∈ openings, '|' ∉ o.1.toList := by simp [openings]
  have hsimple : ∀ o ∈ openings, ∀ r,
      literal ctx path ((o.1 : Text).points ++ r) = simpleLiteral ctx path ((o.1 : Text).points ++ r) := by
    simp only [openings, List.forall_mem_cons, List.not_mem_nil, false_imp_iff, implies_true, and_true]
    and_intros <;> exact fun r => rfl
  intro o ho t ht
  rw [readBytes_append ctx path (hwords o ho) ht, hsimple o ho, simpleLiteral, opened?_word o ho, ← Text.points_append]
  simp only [Text.ofPoints_points]

theorem readBytes_hex {s : String} {b : Bytes} (hs : s.toList.map Char.toLower = b.hexChars) :
    readBytes ctx path (.text ("0x" ++ s : String)) = .ok b := by
  have hbar : '|' ∉ s.toList := by
    intro h
    have hmem : '|' ∈ b.hexChars := hs ▸ List.mem_map_of_mem (f := Char.toLower) h
    obtain ⟨n, hn, hdigit⟩ := mem_hexChars hmem
    interval_cases n <;> cases hdigit
  have hread := readBytes_opened ctx path ("0x", .hex) (by simp [openings]) s (mt char_mem_points.1 hbar)
  rw [← Text.plain_append_plain, hread]
  change hexBytes path _ s = _
  rw [hexBytes, Text.plain?, Option.bind_some, ofHex?, ofHexChars?_of_toLower hs]

/-! ### Numerals -/

/-- The characters of numerals. -/
def isNumeralChar (c : Char) : Bool := isAsciiDigit c || c == ',' || c == '_' || c == '-'

theorem isNumeralChar_of_mem {cs : List Char} (h : isNumeral cs = true) : ∀ c ∈ cs, isNumeralChar c = true := by
  have hunsigned : ∀ l, isUnsignedNumeral l = true → ∀ c ∈ l, isNumeralChar c = true := by
    rintro (_ | ⟨d, r⟩) hl c hc
    · cases hc
    · rw [isUnsignedNumeral, Bool.and_eq_true, List.all_eq_true] at hl
      rcases List.mem_cons.1 hc with rfl | hc
      · rw [isNumeralChar, hl.1]
        rfl
      · rw [isNumeralChar, hl.2 c hc]
        rfl
  rw [isNumeral.eq_def] at h
  split at h
  · rintro c hc
    rcases List.mem_cons.1 hc with rfl | hc
    · rfl
    · exact hunsigned _ h c hc
  · exact hunsigned _ h

/-- The characters of numerals and the blanks that may stand around them. -/
def isPlainChar (c : Char) : Bool := isNumeralChar c || Text.isBlank c

/-- Every word that opens literals has a character that is neither in a numeral nor a blank. -/
theorem opened?_of_isPlainChar {s : String} (h : ∀ c ∈ s.toList, isPlainChar c = true) :
    opened? (s : Text).points = none := by
  have hwords : ∀ o ∈ openings, ∃ c ∈ o.1.toList, isPlainChar c = false := by
    simp [openings, isPlainChar, isNumeralChar, isAsciiDigit, Text.isBlank]
  refine List.findSome?_eq_none_iff.2 fun o ho => ?_
  obtain ⟨c, hc, hnone⟩ := hwords o ho
  have hrest : Text.rest? (o.1 : Text).points (s : Text).points = none := by
    refine if_neg fun hprefix => ?_
    have hmem := (List.isPrefixOf_iff_prefix.1 hprefix).subset (char_mem_points.2 hc)
    rw [h c (char_mem_points.1 hmem)] at hnone
    cases hnone
  exact Option.map_eq_none_iff.2 hrest

/-- Of such characters, numerals alone are literals. -/
theorem literal_of_isPlainChar {s : String} (h : ∀ c ∈ s.toList, isPlainChar c = true) (hs : s ≠ "") :
    literal ctx path (s : Text).points =
      if isNumeral s.toList then (number path s).map encodeInt else misread path (.unknownLiteral s) := by
  have hne : ∀ c, isPlainChar c = false → c ∉ s.toList := by
    intro c hnone hc
    rw [h c hc] at hnone
    cases hnone
  have hnested : ∀ r, (s : Text).points ≠
      .char 'n' :: .char 'e' :: .char 's' :: .char 't' :: .char 'e' :: .char 'd' :: .char ':' :: r :=
    fun r heq => hne 'n' rfl (char_mem_points.1 (heq ▸ List.mem_cons_self))
  have hbiguint : ∀ r, (s : Text).points ≠ .char 'b' :: .char 'i' :: .char 'g' :: .char 'u' :: .char 'i' ::
      .char 'n' :: .char 't' :: .char ':' :: r :=
    fun r heq => hne 'b' rfl (char_mem_points.1 (heq ▸ List.mem_cons_self))
  have hfalse : s ≠ "false" := by
    rintro rfl
    exact hne 'f' rfl (by decide)
  have htrue : s ≠ "true" := by
    rintro rfl
    exact hne 't' rfl (by decide)
  rw [literal.eq_3 ctx path _ hnested hbiguint, simpleLiteral, opened?_of_isPlainChar h, Text.ofPoints_points]
  exact (if_neg (not_or.2 ⟨hs, hfalse⟩)).trans (if_neg htrue)

theorem literal_of_isNumeral {s : String} (h : isNumeral s.toList = true) :
    literal ctx path (s : Text).points = (number path s).map encodeInt := by
  have hplain : ∀ c ∈ s.toList, isPlainChar c = true := fun c hc => by
    rw [isPlainChar, isNumeralChar_of_mem h c hc, Bool.true_or]
  have hs : s ≠ "" := by
    rintro rfl
    cases h
  rw [literal_of_isPlainChar ctx path hplain hs, if_pos h]

/-- The text spells the number in decimal, with commas and low lines anywhere after the first digit. -/
def Spells (s : String) (n : Int) : Prop :=
  ∃ d r, s.toList = (if n < 0 then ['-'] else []) ++ d :: r ∧
    d :: r.filter (fun c => c != ',' && c != '_') = Nat.toDigits 10 n.natAbs

example : Spells "-1,00_0," (-1000) := ⟨'1', ",00_0,".toList, by simp, by decide⟩

namespace Spells

variable {s : String} {n : Int}

theorem isNumeral (h : Spells s n) : isNumeral s.toList = true := by
  obtain ⟨d, r, hs, hdigits⟩ := h
  have hdigit : ∀ c ∈ Nat.toDigits 10 n.natAbs, isAsciiDigit c = true := fun _ => Text.isDigit_of_mem_toDigits
  have hd : isAsciiDigit d = true := hdigit d (hdigits ▸ List.mem_cons_self)
  have hunsigned : isUnsignedNumeral (d :: r) = true := by
    rw [isUnsignedNumeral, hd, Bool.true_and, List.all_eq_true]
    intro c hc
    by_cases hsep : c = ',' ∨ c = '_'
    · rcases hsep with rfl | rfl <;> rfl
    · have hmem : c ∈ r.filter (fun c => c != ',' && c != '_') := List.mem_filter.2 ⟨hc, by simpa using hsep⟩
      rw [hdigit c (hdigits ▸ List.mem_cons_of_mem d hmem)]
      rfl
  rw [hs]
  split
  · exact hunsigned
  · rw [List.nil_append, Fixture.isNumeral.eq_def]
    split
    · rename_i hminus
      obtain ⟨rfl, -⟩ := List.cons.inj hminus
      cases hd
    · exact hunsigned

theorem bar_notMem (h : Spells s n) : .char '|' ∉ (s : Text).points := fun hbar =>
  absurd (isNumeralChar_of_mem h.isNumeral _ (char_mem_points.1 hbar)) (by decide)

theorem number (h : Spells s n) (hn : (Nat.toDigits 10 n.natAbs).length ≤ Text.digitLimit) :
    Fixture.number path s = .ok n := by
  have hfilter : s.toList.filter (fun c => c != ',' && c != '_') = Text.decimal n := by
    obtain ⟨d, r, hs, hdigits⟩ := h
    have hd : d.isDigit = true := Text.isDigit_of_mem_toDigits (hdigits ▸ List.mem_cons_self)
    have hkept : (d != ',' && d != '_') = true := by
      rw [Bool.and_eq_true, bne_iff_ne, bne_iff_ne]
      constructor <;> rintro rfl <;> cases hd
    have hfirst : (d :: r).filter (fun c => c != ',' && c != '_') = d :: r.filter (fun c => c != ',' && c != '_') :=
      List.filter_cons_of_pos hkept
    rw [hs, List.filter_append, hfirst, hdigits, Text.decimal]
    split <;> rfl
  rw [Fixture.number, number?, hfilter, Text.readInteger?_decimal hn]

end Spells

/-- The number that a text spells, in its shortest form. -/
theorem readBytes_of_spells {s : String} {n : Int} (h : Spells s n)
    (hn : (Nat.toDigits 10 n.natAbs).length ≤ Text.digitLimit) :
    readBytes ctx path (.text s) = .ok (encodeInt n) := by
  rw [readBytes_text ctx path h.bar_notMem, literal_of_isNumeral ctx path h.isNumeral, h.number path hn]
  rfl

/-! ### Numbers of a fixed width -/

theorem fixedNumber_inWidth {w : Nat} {s : String} {n : Int} {fits : Prop} {decode : Bytes → Int} {e : Codec.Error}
    {encode : Int → Except Codec.Error Bytes} (h : Spells s n)
    (hn : (Nat.toDigits 10 n.natAbs).length ≤ Text.digitLimit) (hencode : InWidth w n fits decode e (encode n)) :
    InWidth w n fits decode (.misread path (.unfit e)) (fixedNumber path encode s) := by
  rw [fixedNumber, h.number path hn]
  exact hencode.mapError fun e => ReadError.misread path (.unfit e)

/-- The bounds of whole bytes, in bits. -/
theorem byte_widths : ∀ W ∈ [8, 16, 32, 64],
    0 < W / 8 ∧ (256 : Int) ^ (W / 8) = 2 * 2 ^ (W - 1) ∧ (256 : Int) ^ (W / 8) = 2 ^ W := by
  simp

/-- The words for numbers of fixed width. -/
theorem openings_fixed : ∀ W ∈ [8, 16, 32, 64],
    ("u" ++ toString W ++ ":", Opening.fixed (encodeFixedUnsigned (W / 8 : Nat))) ∈ openings ∧
    ("i" ++ toString W ++ ":", Opening.fixed (encodeFixedSigned (W / 8 : Nat))) ∈ openings := by
  have hwords : ("u" ++ toString 8 ++ ":" = "u8:" ∧ "i" ++ toString 8 ++ ":" = "i8:") ∧
      ("u" ++ toString 16 ++ ":" = "u16:" ∧ "i" ++ toString 16 ++ ":" = "i16:") ∧
      ("u" ++ toString 32 ++ ":" = "u32:" ∧ "i" ++ toString 32 ++ ":" = "i32:") ∧
      ("u" ++ toString 64 ++ ":" = "u64:" ∧ "i" ++ toString 64 ++ ":" = "i64:") := by decide
  obtain ⟨⟨hu8, hi8⟩, ⟨hu16, hi16⟩, ⟨hu32, hi32⟩, ⟨hu64, hi64⟩⟩ := hwords
  simp only [List.forall_mem_cons, List.not_mem_nil, false_imp_iff, implies_true, and_true]
  rw [hu8, hi8, hu16, hi16, hu32, hi32, hu64, hi64]
  simp [openings]

theorem readBytes_fixed {t : Text} (ht : .char '|' ∉ t.points) : ∀ W ∈ [8, 16, 32, 64],
    readBytes ctx path (.text (("u" ++ toString W ++ ":" : String) ++ t)) =
      fixedNumber path (encodeFixedUnsigned (W / 8 : Nat)) t ∧
    readBytes ctx path (.text (("i" ++ toString W ++ ":" : String) ++ t)) =
      fixedNumber path (encodeFixedSigned (W / 8 : Nat)) t := fun W hW =>
  ⟨readBytes_opened ctx path _ (openings_fixed W hW).1 t ht, readBytes_opened ctx path _ (openings_fixed W hW).2 t ht⟩

theorem readBytes_fixed_inWidth {s : String} {n : Int} (h : Spells s n)
    (hn : (Nat.toDigits 10 n.natAbs).length ≤ Text.digitLimit) : ∀ W ∈ [8, 16, 32, 64],
    InWidth (W / 8) n (0 ≤ n ∧ n < 2 ^ W) (fun b => decodeUnsigned b)
      (.misread path (.unfit (.unfit n false (W / 8 : Nat))))
      (readBytes ctx path (.text ("u" ++ toString W ++ ":" ++ s : String))) ∧
    InWidth (W / 8) n (-2 ^ (W - 1) ≤ n ∧ n < 2 ^ (W - 1)) decodeSigned
      (.misread path (.unfit (.unfit n true (W / 8 : Nat))))
      (readBytes ctx path (.text ("i" ++ toString W ++ ":" ++ s : String))) := by
  intro W hW
  obtain ⟨hpos, hhalf, hfull⟩ := byte_widths W hW
  have hfits : FitsSigned (W / 8) n ↔ -2 ^ (W - 1) ≤ n ∧ n < 2 ^ (W - 1) := by
    rw [FitsSigned, hhalf]
    omega
  have hunsigned := fixedNumber_inWidth path h hn (encodeFixedUnsigned_inWidth (W / 8) n)
  have hsigned := fixedNumber_inWidth path h hn (encodeFixedSigned_inWidth hpos n)
  rw [hfull] at hunsigned
  rw [hfits] at hsigned
  rw [← (readBytes_fixed ctx path h.bar_notMem W hW).1] at hunsigned
  rw [← (readBytes_fixed ctx path h.bar_notMem W hW).2] at hsigned
  exact ⟨hunsigned, hsigned⟩

/-! ### Literals in others -/

/-- A literal with `nested:` in front so many times. -/
def nestedIn (k : Nat) (t : Text) : Text := (("nested:" : Text) ++ ·)^[k] t

theorem nestedIn_succ (k : Nat) (t : Text) : nestedIn (k + 1) t = ("nested:" : Text) ++ nestedIn k t :=
  Function.iterate_succ_apply' _ _ _

theorem bar_notMem_nestedIn {t : Text} (ht : .char '|' ∉ t.points) (k : Nat) :
    .char '|' ∉ (nestedIn k t).points := by
  induction k with
  | zero => exact ht
  | succ k ih =>
    rw [nestedIn_succ, Text.points_append, List.mem_append, not_or]
    exact ⟨mt char_mem_points.1 (by decide), ih⟩

/-- The bytes of the literal after `nested:` are put behind their length. -/
theorem readBytes_nested {t : Text} (ht : .char '|' ∉ t.points) :
    readBytes ctx path (.text (("nested:" : Text) ++ t)) = readBytes ctx path (.text t) >>= nested := by
  rw [readBytes_append ctx path (by decide) ht, readBytes_text ctx path ht]
  rfl

/-- So is the amount after `biguint:`. -/
theorem readBytes_biguint {t : Text} (ht : .char '|' ∉ t.points) :
    readBytes ctx path (.text (("biguint:" : Text) ++ t)) =
      readAmount ctx path (.text t) >>= fun n => nested (encodeNat n) := by
  rw [readBytes_append ctx path (by decide) ht, readAmount, readBytes_text ctx path ht]
  change textAmount path (.ofPoints t.points) (literal ctx path t.points) >>= _ = _
  rw [Text.ofPoints_points]

theorem nested_of_lt {b : Bytes} (h : b.length < 2 ^ 32) : nested b = .ok (encodeNested b) := if_pos h

theorem readBytes_nestedIn {t : Text} {b : Bytes} (ht : .char '|' ∉ t.points)
    (h : readBytes ctx path (.text t) = .ok b) (k : Nat) (hk : ∀ i < k, (encodeNested^[i] b).length < 2 ^ 32) :
    readBytes ctx path (.text (nestedIn k t)) = .ok (encodeNested^[k] b) := by
  induction k with
  | zero => exact h
  | succ k ih =>
    rw [nestedIn_succ, readBytes_nested ctx path (bar_notMem_nestedIn ht k),
      ih fun i hi => hk i (Nat.lt_succ_of_lt hi), Function.iterate_succ_apply']
    exact nested_of_lt (hk k (Nat.lt_succ_self k))

/-- What is read behind `nested:` is found again by its length. -/
theorem readBytes_nested_decodes {t : Text} {b : Bytes} (ht : .char '|' ∉ t.points)
    (h : readBytes ctx path (.text t) = .ok b) (hb : b.length < 2 ^ 32) :
    ∃ x, readBytes ctx path (.text (("nested:" : Text) ++ t)) = .ok x ∧ decodeNested x 0 = .ok (b, x.length) := by
  have hread : readBytes ctx path (.text (("nested:" : Text) ++ t)) = .ok (encodeNested b) := by
    rw [readBytes_nested ctx path ht, h]
    exact nested_of_lt hb
  have hdecode := decodeNested_append [] [] hb
  rw [List.nil_append, List.append_nil, List.length_nil, Nat.zero_add] at hdecode
  exact ⟨_, hread, hdecode⟩

/-! ### Names -/

/-- A name in so many bytes behind others: if its bytes are few enough they are filled up with low lines, and
otherwise it is refused. -/
structure InRoom (path : Text) (room : Nat) (front : Bytes) (name : Text) (r : Read Bytes) : Prop where
  succeeds : (∃ b, r = .ok b) ↔ ∃ u, name.bytes? = some u ∧ u.length ≤ room
  spells : ∀ b u, r = .ok b → name.bytes? = some u → b = front ++ u ++ List.replicate (room - u.length) 95
  refuses : ∀ u, name.bytes? = some u → room < u.length → r = misread path (.longName name room)
  encodes : name.bytes? = none → r = .error .unencodable

theorem paddedName_inRoom (room : Nat) (front : Bytes) (name : Text) :
    InRoom path room front name ((paddedName path room name).map (front ++ ·)) := by
  unfold paddedName textBytes
  cases hname : name.bytes? with
  | none =>
    have hnone : ∀ {u}, name.bytes? ≠ some u := fun h => nomatch hname.symm.trans h
    exact ⟨iff_of_false nofun fun ⟨_, h, _⟩ => hnone h, nofun, fun _ h => absurd h hnone, fun _ => rfl⟩
  | some u =>
    change InRoom path room front name (Except.map (front ++ ·)
      (if room < u.length then misread path (.longName name room) else .ok (u ++ List.replicate (room - u.length) 95)))
    split_ifs with hlong
    · refine ⟨iff_of_false nofun ?_, nofun, fun _ _ _ => rfl, fun h => nomatch hname.symm.trans h⟩
      rintro ⟨_, h, hroom⟩
      cases hname.symm.trans h
      exact Nat.not_le.2 hlong hroom
    · refine ⟨iff_of_true ⟨_, rfl⟩ ⟨u, hname, Nat.not_lt.1 hlong⟩, ?_, ?_, fun h => nomatch hname.symm.trans h⟩
      · rintro _ _ ⟨⟩ h
        cases hname.symm.trans h
        rw [List.append_assoc]
      · rintro _ h hroom
        cases hname.symm.trans h
        exact absurd hroom hlong

theorem readBytes_address {name : Text} (h : .char '|' ∉ name.points) :
    InRoom path 32 [] name (readBytes ctx path (.text (("address:" : Text) ++ name))) := by
  rw [readBytes_opened ctx path ("address:", .name 0 32) (by simp [openings]) name h]
  exact paddedName_inRoom path 32 [] name

theorem readBytes_sc {name : Text} (h : .char '|' ∉ name.points) :
    InRoom path 24 (List.replicate 8 0) name (readBytes ctx path (.text (("sc:" : Text) ++ name))) := by
  rw [readBytes_opened ctx path ("sc:", .name 8 24) (by simp [openings]) name h]
  exact paddedName_inRoom path 24 (List.replicate 8 0) name

/-- What literals stand for. Digits in base sixteen are the bytes that they write. A spelling of a number in decimal
is its shortest encoding; behind a word for a width it is the number in that width, if it fits. `nested:`
puts the length before what the literal after it stands for, any number of times over as long as four bytes hold
it, and `biguint:` before the number. Names are filled up to the length of an address. -/
theorem literals_denote (ctx : Context) (path : Text) :
    (∀ (b : Bytes) (s : String), s.toList.map Char.toLower = b.hexChars →
      readBytes ctx path (.text ("0x" ++ s : String)) = .ok b) ∧
    (∀ (n : Int) (s : String), Spells s n → (Nat.toDigits 10 n.natAbs).length ≤ 4300 →
      (∃ b, readBytes ctx path (.text s) = .ok b ∧
        (0 ≤ n → encodeUnsigned n = .ok b ∧ IsShortest (fun b => (decodeUnsigned b : Int)) n b) ∧
        (n < 0 → encodeSigned n = b ∧ IsShortest decodeSigned n b)) ∧
      ∀ W ∈ [8, 16, 32, 64],
        InWidth (W / 8) n (0 ≤ n ∧ n < 2 ^ W) (fun b => decodeUnsigned b)
          (.misread path (.unfit (.unfit n false (W / 8 : Nat))))
          (readBytes ctx path (.text ("u" ++ toString W ++ ":" ++ s : String))) ∧
        InWidth (W / 8) n (-2 ^ (W - 1) ≤ n ∧ n < 2 ^ (W - 1)) decodeSigned
          (.misread path (.unfit (.unfit n true (W / 8 : Nat))))
          (readBytes ctx path (.text ("i" ++ toString W ++ ":" ++ s : String)))) ∧
    (∀ (t : Text) (b : Bytes), .char '|' ∉ t.points → readBytes ctx path (.text t) = .ok b → ∀ k,
      (∀ i < k, (encodeNested^[i] b).length < 2 ^ 32) →
      readBytes ctx path (.text (nestedIn k t)) = .ok (encodeNested^[k] b) ∧
      ((encodeNested^[k] b).length < 2 ^ 32 →
        ∃ x, readBytes ctx path (.text (("nested:" : Text) ++ nestedIn k t)) = .ok x ∧
          decodeNested x 0 = .ok (encodeNested^[k] b, x.length)) ∧
      (2 ^ 32 ≤ (encodeNested^[k] b).length →
        readBytes ctx path (.text (("nested:" : Text) ++ nestedIn k t)) = .error .oversized)) ∧
    (∀ (t : Text) (n : Nat), .char '|' ∉ t.points → readAmount ctx path (.text t) = .ok n →
      (encodeNat n).length < 2 ^ 32 →
      ∃ b, readBytes ctx path (.text (("biguint:" : Text) ++ t)) = .ok b ∧ encodeNestedUnsigned n = .ok b) ∧
    ∀ name : Text, .char '|' ∉ name.points →
      InRoom path 32 [] name (readBytes ctx path (.text (("address:" : Text) ++ name))) ∧
      InRoom path 24 (List.replicate 8 0) name (readBytes ctx path (.text (("sc:" : Text) ++ name))) := by
  refine ⟨fun b s => readBytes_hex ctx path, fun n s hs hn => ⟨?_, readBytes_fixed_inWidth ctx path hs hn⟩,
    fun t b hbar ht k hk => ?_, fun t n hbar ht hn => ?_,
    fun name hbar => ⟨readBytes_address ctx path hbar, readBytes_sc ctx path hbar⟩⟩
  · exact ⟨_, readBytes_of_spells ctx path hs hn, encodeInt_isShortest n⟩
  · have hread := readBytes_nestedIn ctx path hbar ht k hk
    have hbar' := bar_notMem_nestedIn hbar k
    refine ⟨hread, readBytes_nested_decodes ctx path hbar' hread, fun hlong => ?_⟩
    rw [readBytes_nested ctx path hbar', hread]
    exact if_neg (Nat.not_lt.2 hlong)
  · refine ⟨encodeNested (encodeNat n), ?_, ?_⟩
    · rw [readBytes_biguint ctx path hbar, ht]
      exact nested_of_lt hn
    · rw [encodeNestedUnsigned, encodeUnsigned, if_neg (Int.not_lt.2 n.cast_nonneg)]
      rfl

end TrialLedger.Fixture
