import Mathlib
import TrialLedger.Codec
import TrialLedger.Key
import TrialLedger.Proofs.Bytes
import TrialLedger.Proofs.Text.Quoted

/-! Tokens and their wire names. Tokens are compared, and kept as keys, by their names alone. The name of an issued
token is not checked when it is read or made, so one may go under the name of the native coin, and is then read back
as that coin. No well-formed name is the native one, so valid tokens are told apart by their names. -/

namespace TrialLedger

theorem Key.ofValue_token (t : Token) : Key.ofValue (.token t) = .ok (.other (Token.issued t.name).shown) := rfl

namespace Token

variable {t u : Token}

/-! ### Reading -/

theorem name_parse (b : Bytes) : (parse b).name = b := by
  rw [parse]
  split
  · rename_i h
    exact h.symm
  · rfl

theorem parse_name (t : Token) : parse t.name = if t = issued nativeName then native else t := by
  cases t with
  | native => rfl
  | issued id => by_cases h : id = nativeName <;> simp [name, parse, h]

/-- All tokens but one are read from their names. -/
theorem parse_name_eq_iff : parse t.name = t ↔ t ≠ issued nativeName := by
  rw [parse_name]
  split
  · rename_i h
    simp [h]
  · rename_i h
    exact iff_of_true rfl h

/-- The exception is read as the native coin, which is no issued token. -/
theorem isNative_parse_name_iff : (parse t.name).isNative = t.isNative ↔ t ≠ issued nativeName := by
  refine ⟨?_, fun h => by rw [parse_name_eq_iff.2 h]⟩
  rintro h rfl
  cases h

/-! ### Comparison -/

theorem same_iff : t.same u = true ↔ t.name = u.name := beq_iff_eq

/-- Tokens come in the order of their names in a dictionary. -/
theorem lt_iff : t.lt u = true ↔ t.name < u.name := Bytes.lt_iff

theorem le_iff : t.le u = true ↔ t.lt u = true ∨ t.same u = true := Bool.or_eq_true_iff

/-- Of two tokens one comes first or they are the same, and only one of these is so. -/
theorem lt_or_same_or_lt (t u : Token) :
    t.lt u = true ∧ ¬ t.same u = true ∧ ¬ u.lt t = true ∨
    ¬ t.lt u = true ∧ t.same u = true ∧ ¬ u.lt t = true ∨
    ¬ t.lt u = true ∧ ¬ t.same u = true ∧ u.lt t = true := by
  simp only [same_iff, lt_iff]
  by_cases hname : t.name = u.name
  · rw [hname]
    exact .inr (.inl ⟨List.lt_irrefl _, rfl, List.lt_irrefl _⟩)
  · rcases List.le_total t.name u.name with h | h
    · have hlt := (List.le_iff_lt_or_eq.1 h).resolve_right hname
      exact .inl ⟨hlt, hname, List.lt_asymm hlt⟩
    · have hlt := (List.le_iff_lt_or_eq.1 h).resolve_right (Ne.symm hname)
      exact .inr (.inr ⟨List.lt_asymm hlt, hname, hlt⟩)

/-! ### Keys -/

theorem shown_issued (id : Bytes) :
    (issued id).shown = "TokenIdentifierOrNative.token(" ++ Text.quoteBytes id ++ ")" := rfl

theorem shown_issued_inj {a b : Bytes} (h : (issued a).shown = (issued b).shown) : a = b := by
  rw [shown_issued, shown_issued, String.append_left_inj, String.append_right_inj] at h
  exact Text.quoteBytes_inj h

theorem ofValue_eq_iff : Key.ofValue (.token t) = Key.ofValue (.token u) ↔ t.same u = true := by
  rw [same_iff, Key.ofValue_token, Key.ofValue_token]
  exact ⟨fun h => shown_issued_inj (Key.other.inj (Except.ok.inj h)), fun h => by rw [h]⟩

/-! ### Well-formed names -/

/-- Capitals and digits. -/
def tickerBytes : Bytes := Utf8.encode "ABCDEFGHIJKLMNOPQRSTUVWXYZ0123456789"

/-- Digits in base sixteen, in lower case. -/
def suffixBytes : Bytes := Utf8.encode "0123456789abcdef"

/-- The name is a ticker, a hyphen and a suffix, and nothing else. -/
structure Spells (ticker suffix id : Bytes) : Prop where
  eq_append : id = ticker ++ Utf8.encode "-" ++ suffix
  length_ticker : 3 ≤ ticker.length ∧ ticker.length ≤ 10
  ticker_mem : ∀ x ∈ ticker, x ∈ tickerBytes
  length_suffix : suffix.length = 6
  suffix_mem : ∀ x ∈ suffix, x ∈ suffixBytes

theorem mem_map_toNat {x : UInt8} {b : Bytes} : x.toNat ∈ b.map UInt8.toNat ↔ x ∈ b :=
  List.mem_map_of_injective fun _ _ => UInt8.toNat_inj.1

theorem map_toNat_tickerBytes : tickerBytes.map UInt8.toNat = List.range' 65 26 ++ List.range' 48 10 := rfl

theorem map_toNat_suffixBytes : suffixBytes.map UInt8.toNat = List.range' 48 10 ++ List.range' 97 6 := rfl

theorem isTickerByte_iff {x : UInt8} : isTickerByte x = true ↔ x ∈ tickerBytes := by
  rw [← mem_map_toNat, map_toNat_tickerBytes]
  simp only [isTickerByte, Bool.or_eq_true, Bool.and_eq_true, decide_eq_true_eq, UInt8.le_iff_toNat_le,
    UInt8.reduceToNat, List.mem_append, List.mem_range'_1]
  omega

theorem isSuffixByte_iff {x : UInt8} : isSuffixByte x = true ↔ x ∈ suffixBytes := by
  rw [← mem_map_toNat, map_toNat_suffixBytes]
  simp only [isSuffixByte, Bool.or_eq_true, Bool.and_eq_true, decide_eq_true_eq, UInt8.le_iff_toNat_le,
    UInt8.reduceToNat, List.mem_append, List.mem_range'_1]
  omega

/-- No hyphen is in a ticker, so the first one ends it. -/
theorem isWellFormedName_append {ticker suffix : Bytes} (h : ∀ x ∈ ticker, isTickerByte x = true) :
    isWellFormedName (ticker ++ 45 :: suffix) = true ↔
      (3 ≤ ticker.length ∧ ticker.length ≤ 10) ∧ suffix.length = 6 ∧ ∀ x ∈ suffix, isSuffixByte x = true := by
  have htake : (ticker ++ 45 :: suffix).takeWhile isTickerByte = ticker := by
    rw [List.takeWhile_append_of_pos h, List.takeWhile_cons_of_neg (by decide), List.append_nil]
  have hdrop : (ticker ++ 45 :: suffix).dropWhile isTickerByte = 45 :: suffix := by
    rw [List.dropWhile_append_of_pos h, List.dropWhile_cons_of_neg (by decide)]
  simp only [isWellFormedName, htake, hdrop, Bool.and_eq_true, decide_eq_true_eq, beq_iff_eq, List.all_eq_true,
    and_assoc]

theorem exists_append_of_isWellFormedName {id : Bytes} (h : isWellFormedName id = true) :
    ∃ ticker suffix, id = ticker ++ 45 :: suffix ∧ ∀ x ∈ ticker, isTickerByte x = true := by
  rw [isWellFormedName] at h
  split at h
  · rename_i suffix hdrop
    refine ⟨id.takeWhile isTickerByte, suffix, ?_, fun _ => List.mem_takeWhile_imp⟩
    rw [← hdrop, List.takeWhile_append_dropWhile]
  · cases h

theorem isWellFormedName_iff {id : Bytes} :
    isWellFormedName id = true ↔ ∃ ticker suffix, Spells ticker suffix id := by
  constructor
  · intro h
    obtain ⟨ticker, suffix, rfl, hticker⟩ := exists_append_of_isWellFormedName h
    obtain ⟨hlength, hsix, hsuffix⟩ := (isWellFormedName_append hticker).1 h
    exact ⟨ticker, suffix, by rw [List.append_assoc]; rfl, hlength,
      fun x hx => isTickerByte_iff.1 (hticker x hx), hsix, fun x hx => isSuffixByte_iff.1 (hsuffix x hx)⟩
  · rintro ⟨ticker, suffix, rfl, hlength, hticker, hsix, hsuffix⟩
    rw [List.append_assoc]
    exact (isWellFormedName_append fun x hx => isTickerByte_iff.2 (hticker x hx)).2
      ⟨hlength, hsix, fun x hx => isSuffixByte_iff.2 (hsuffix x hx)⟩

/-- The first hyphen and the length behind it are one in both names. -/
theorem Spells.eq_of_prefix {ticker suffix ticker' suffix' a b : Bytes} (ha : Spells ticker suffix a)
    (hb : Spells ticker' suffix' b) (h : a <+: b) : a = b := by
  have hticker : (45 : UInt8) ∉ ticker' := fun h => absurd (hb.ticker_mem _ h) (by decide)
  have hsuffix : (45 : UInt8) ∉ suffix' := fun h => absurd (hb.suffix_mem _ h) (by decide)
  obtain ⟨r, hr⟩ := h
  have hboth : ticker' ++ 45 :: suffix' = ticker ++ 45 :: (suffix ++ r) := by
    rw [ha.eq_append, hb.eq_append, List.append_assoc, List.append_assoc, List.append_assoc] at hr
    exact hr.symm
  obtain ⟨-, -, hrest⟩ := (List.append_cons_inj_of_notMem hticker hsuffix).1 hboth
  have hlength := congrArg List.length hrest
  rw [List.length_append, ha.length_suffix, hb.length_suffix] at hlength
  have hnil : r = [] := List.eq_nil_of_length_eq_zero (by omega)
  rw [← hr, hnil, List.append_nil]

theorem eq_of_isWellFormedName {a b : Bytes} (ha : isWellFormedName a = true) (hb : isWellFormedName b = true)
    (h : a <+: b) : a = b := by
  obtain ⟨ticker, suffix, hspells⟩ := isWellFormedName_iff.1 ha
  obtain ⟨ticker', suffix', hspells'⟩ := isWellFormedName_iff.1 hb
  exact hspells.eq_of_prefix hspells' h

/-! ### Valid tokens -/

/-- There is no hyphen in the name of the native coin. -/
theorem ne_of_isValid (h : t.isValid = true) : t ≠ issued nativeName := by
  rintro rfl
  cases h

theorem parse_name_of_isValid (h : t.isValid = true) : parse t.name = t :=
  parse_name_eq_iff.2 (ne_of_isValid h)

theorem name_inj_of_isValid (ht : t.isValid = true) (hu : u.isValid = true) (h : t.name = u.name) : t = u := by
  rw [← parse_name_of_isValid ht, h, parse_name_of_isValid hu]

/-- Equality, order and keys of tokens are those of their wire names, and the order is total. A token is read from its
name as an equal one: as itself, but for the issued token with the name of the native coin. An issued token is valid
exactly when its name is a ticker, a hyphen and a suffix. So no valid name continues another one, and each valid
token, the native coin among them, has a name of its own, which is read as that token. -/
theorem known_by_name :
    (native.name = Utf8.encode "MOAX" ∧ ∀ id, (issued id).name = id) ∧
    (∀ t : Token, Codec.encode (.token t) = .ok t.name ∧ (parse t.name).same t = true ∧
      ((parse t.name).isNative = t.isNative ↔ t ≠ issued (Utf8.encode "MOAX")) ∧
      (parse t.name = t ↔ t ≠ issued (Utf8.encode "MOAX"))) ∧
    (∀ t u : Token,
      (t.same u = true ↔ t.name = u.name) ∧
      (Key.ofValue (.token t) = Key.ofValue (.token u) ↔ t.same u = true) ∧
      (t.lt u = true ↔ t.name < u.name) ∧
      (t.le u = true ↔ t.lt u = true ∨ t.same u = true) ∧
      (t.lt u = true ∧ ¬ t.same u = true ∧ ¬ u.lt t = true ∨
        ¬ t.lt u = true ∧ t.same u = true ∧ ¬ u.lt t = true ∨
        ¬ t.lt u = true ∧ ¬ t.same u = true ∧ u.lt t = true)) ∧
    (∀ t u v : Token, t.lt u = true → u.lt v = true → t.lt v = true) ∧
    (∀ id, (issued id).isValid = true ↔ ∃ ticker suffix, Spells ticker suffix id) ∧
    (∀ a b, (issued a).isValid = true → (issued b).isValid = true → a <+: b → a = b) ∧
    native.isValid = true ∧
    (∀ t : Token, t.isValid = true → parse t.name = t) ∧
    ∀ t u : Token, t.isValid = true → u.isValid = true → t.name = u.name → t = u := by
  refine ⟨⟨rfl, fun id => rfl⟩,
    fun t => ⟨rfl, same_iff.2 (name_parse t.name), isNative_parse_name_iff, parse_name_eq_iff⟩,
    fun t u => ⟨same_iff, ofValue_eq_iff, lt_iff, le_iff, lt_or_same_or_lt t u⟩,
    fun t u v htu huv => ?_, fun id => isWellFormedName_iff, fun a b => eq_of_isWellFormedName, rfl,
    fun t => parse_name_of_isValid, fun t u => name_inj_of_isValid⟩
  exact lt_iff.2 (List.lt_trans (lt_iff.1 htu) (lt_iff.1 huv))

/-- The native coin comes between two issued tokens, and each of the three is read from its name. -/
theorem known_by_name_between :
    (issued (Utf8.encode "AAA-000000")).lt native = true ∧ native.lt (issued (Utf8.encode "ZZZ-000000")) = true ∧
    (issued (Utf8.encode "AAA-000000")).isValid = true ∧
    (issued (Utf8.encode "AAA-000000")).lt (issued (Utf8.encode "ZZZ-000000")) = true ∧
    parse (Utf8.encode "AAA-000000") = issued (Utf8.encode "AAA-000000") ∧ parse (Utf8.encode "MOAX") = native := by
  obtain ⟨-, -, -, htrans, -, -, hnative, hparse, -⟩ := known_by_name
  have hfirst : (issued (Utf8.encode "AAA-000000")).lt native = true := rfl
  have hlast : native.lt (issued (Utf8.encode "ZZZ-000000")) = true := rfl
  have hvalid : (issued (Utf8.encode "AAA-000000")).isValid = true := rfl
  exact ⟨hfirst, hlast, hvalid, htrans _ _ _ hfirst hlast, hparse _ hvalid, hparse _ hnative⟩

end Token

end TrialLedger
