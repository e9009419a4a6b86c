import Mathlib
import TrialLedger.Json.Parser
import TrialLedger.Json.Printer
import TrialLedger.Proofs.Bytes

/-! The JSON text of a value determines the value, whatever follows it, as long as no digit follows a
number. What is written of a text is read back by the reader of texts. Numbers with a point and ragged texts
are left out. -/

namespace TrialLedger.Json

/-! ### Digits -/

theorem hexUnit?_hexPadded {n : Nat} (h : n < 0x10000) (r : List Char) :
    hexUnit? (Text.hexPadded 4 n ++ r) = some (n, r) := by
  simp only [Text.hexPadded, List.nil_append, List.cons_append, hexUnit?, Bytes.hexValue?_hexDigit_mod,
    Option.bind_eq_bind, Option.bind_some, Option.pure_def, Option.some.injEq, Prod.mk.injEq, and_true]
  omega

/-- No digit comes first. -/
def NoDigit (r : List Char) : Prop := ∀ c ∈ r.head?, c.isDigit = false

theorem noDigit_cons {c : Char} (h : c.isDigit = false) (r : List Char) : NoDigit (c :: r) := by
  rintro _ ⟨⟩
  exact h

theorem takeWhile_toDigits (n : Nat) {r : List Char} (hr : NoDigit r) :
    (Nat.toDigits 10 n ++ r).takeWhile Char.isDigit = Nat.toDigits 10 n := by
  have hnone : r.takeWhile Char.isDigit = [] := by
    cases r with
    | nil => rfl
    | cons c r => exact List.takeWhile_cons_of_neg (by simp [hr c rfl])
  rw [List.takeWhile_append_of_pos fun c hc => Nat.isDigit_of_mem_toDigits (by decide) (by decide) hc,
    hnone, List.append_nil]

/-- The digits of a number end where no digit comes first. -/
theorem toDigits_append_inj {m n : Nat} {r r' : List Char} (hr : NoDigit r) (hr' : NoDigit r')
    (h : Nat.toDigits 10 m ++ r = Nat.toDigits 10 n ++ r') : m = n ∧ r = r' := by
  have hdigits : Nat.toDigits 10 m = Nat.toDigits 10 n := by
    rw [← takeWhile_toDigits m hr, h, takeWhile_toDigits n hr']
  refine ⟨?_, ?_⟩
  · rw [← Nat.ofDigitChars_ten_toDigits (n := m), hdigits, Nat.ofDigitChars_ten_toDigits]
  · rw [hdigits] at h
    exact List.append_cancel_left h

/-- The digits of a whole number after its sign. -/
theorem toList_toString (n : Int) :
    (toString n).toList = if 0 ≤ n then Nat.toDigits 10 n.natAbs else '-' :: Nat.toDigits 10 n.natAbs := by
  rw [Int.toString_eq_repr, Int.repr_eq_if]
  split
  · rw [Nat.toList_repr, show n.toNat = n.natAbs by omega]
  · rw [String.toList_append, Nat.toList_repr, show (-n).toNat = n.natAbs by omega]
    rfl

theorem minus_notMem_toDigits (n : Nat) : '-' ∉ Nat.toDigits 10 n := fun h =>
  absurd (Nat.isDigit_of_mem_toDigits (by decide) (by decide) h) (by decide)

/-- A number in decimal is not the start of another one. -/
theorem toString_append_inj {m n : Int} {r r' : List Char} (hr : NoDigit r) (hr' : NoDigit r')
    (h : (toString m).toList ++ r = (toString n).toList ++ r') : m = n ∧ r = r' := by
  -- A sign in front of digits is none of them.
  have hsign : ∀ (i j : Nat) (r r' : List Char), '-' :: (Nat.toDigits 10 i ++ r) ≠ Nat.toDigits 10 j ++ r' := by
    intro i j r r' h
    cases hd : Nat.toDigits 10 j with
    | nil => exact Nat.toDigits_ne_nil hd
    | cons c cs =>
      rw [hd, List.cons_append, List.cons.injEq] at h
      exact minus_notMem_toDigits j (hd ▸ h.1 ▸ List.mem_cons_self)
  rw [toList_toString, toList_toString] at h
  split at h <;> split at h
  · obtain ⟨habs, rfl⟩ := toDigits_append_inj hr hr' h
    exact ⟨by omega, rfl⟩
  · exact absurd h.symm (hsign _ _ _ _)
  · exact absurd h (hsign _ _ _ _)
  · rw [List.cons_append, List.cons_append, List.cons.injEq] at h
    obtain ⟨habs, rfl⟩ := toDigits_append_inj hr hr' h.2
    exact ⟨by omega, rfl⟩

/-! ### Texts -/

theorem readText_plain (fuel : Nat) (acc : List Point) {c : Char} (r : List Char) (hq : c ≠ '"')
    (hb : c ≠ '\\') (hc : 0x20 ≤ c.toNat) : readText (fuel + 1) acc (c :: r) = readText fuel (.char c :: acc) r := by
  have hc' : ¬ c.toNat < 0x20 := by omega
  rw [readText] <;> simp_all

theorem readText_unit (fuel : Nat) (acc : List Point) {n : Nat} (hn : n < 0x10000) (r : List Char) :
    readText (fuel + 1) acc (escapeUnit n ++ r) =
      readText fuel ((unitPoint n r).1 :: acc) (unitPoint n r).2 := by
  rw [escapeUnit, List.cons_append, List.cons_append, readText, hexUnit?_hexPadded hn]

/-- A number outside the surrogates is that of a character. -/
theorem unitPoint_char {c : Char} (hn : c.toNat < 0x10000) (r : List Char) : unitPoint c.toNat r = (.char c, r) := by
  have hvalid : c.toNat < 0xd800 ∨ 0xdfff < c.toNat ∧ c.toNat < 0x110000 := c.valid
  unfold unitPoint
  rw [if_neg (by omega), Point.ofCode, dif_neg (by omega), Char.ofNat_toNat]

/-- The two escapes of a character beyond the first plane. -/
theorem unitPoint_pair {n : Nat} (hn : n < 0x100000) (r : List Char) :
    unitPoint (0xd800 + n / 0x400) (escapeUnit (0xdc00 + n % 0x400) ++ r) = (.char (Char.ofNat (0x10000 + n)), r) := by
  have hhigh : 0xd800 ≤ 0xd800 + n / 0x400 ∧ 0xd800 + n / 0x400 < 0xdc00 := by omega
  have hin : (0xdc00 ≤ 0xdc00 + n % 0x400 && 0xdc00 + n % 0x400 < 0xe000) = true := by
    rw [Bool.and_eq_true, decide_eq_true_eq, decide_eq_true_eq]
    omega
  have hlow : lowUnit? (escapeUnit (0xdc00 + n % 0x400) ++ r) = some (0xdc00 + n % 0x400, r) := by
    rw [escapeUnit, List.cons_append, List.cons_append, lowUnit?, hexUnit?_hexPadded (by omega)]
    exact Option.filter_eq_some_iff.2 ⟨rfl, hin⟩
  have hn' : 0x10000 + 0x400 * (0xd800 + n / 0x400 - 0xd800) + (0xdc00 + n % 0x400 - 0xdc00) = 0x10000 + n := by
    omega
  unfold unitPoint
  simp only [if_pos hhigh, hlow, hn']

/-- A character is read back from its escape. -/
theorem readText_escape (fuel : Nat) (acc : List Point) (c : Char) (r : List Char) :
    readText (fuel + 1) acc (escape c ++ r) = readText fuel (.char c :: acc) r := by
  have hvalid : c.toNat < 0xd800 ∨ 0xdfff < c.toNat ∧ c.toNat < 0x110000 := c.valid
  unfold escape
  split_ifs with hq hb _ _ _ _ _ hplain hunit
  iterate 7 subst c; rfl
  · exact readText_plain fuel acc r hq hb hplain.1
  · rw [readText_unit fuel acc hunit, unitPoint_char hunit]
  · have hpair := unitPoint_pair (n := c.toNat - 0x10000) (by omega) r
    rw [show 0x10000 + (c.toNat - 0x10000) = c.toNat by omega, Char.ofNat_toNat] at hpair
    rw [List.append_assoc, readText_unit fuel acc (by omega), hpair]

/-- A text is read back from its escapes, up to the closing quote. -/
theorem readText_flatMap_escape (fuel : Nat) (cs : List Char) (acc : List Point) (r : List Char) (hf : cs.length < fuel) :
    readText fuel acc (cs.flatMap escape ++ '"' :: r) = .ok (.ofPoints (acc.reverse ++ cs.map .char), r) := by
  induction cs generalizing acc fuel with
  | nil =>
    obtain ⟨fuel, rfl⟩ := Nat.exists_eq_add_of_lt hf
    rw [List.map_nil, List.append_nil]
    rfl
  | cons c cs ih =>
    obtain ⟨fuel, rfl⟩ : ∃ k, fuel = k + 1 := ⟨fuel - 1, by omega⟩
    rw [List.flatMap_cons, List.append_assoc, readText_escape, ih _ _ (by simpa using hf),
      List.reverse_cons, List.append_assoc]
    rfl

theorem quoted_plain (s : String) : quoted s = '"' :: s.toList.flatMap escape ++ ['"'] := by
  rw [quoted, Text.points, List.flatMap_map]
  rfl

theorem quoted_append_inj {s t : String} {r r' : List Char} (h : quoted s ++ r = quoted t ++ r') :
    s = t ∧ r = r' := by
  simp only [quoted_plain, List.cons_append, List.append_assoc, List.nil_append,
    List.cons.injEq, true_and] at h
  set fuel := s.toList.length + t.toList.length + 1
  have hs := readText_flatMap_escape fuel s.toList [] r (by omega)
  have ht := readText_flatMap_escape fuel t.toList [] r' (by omega)
  rw [h, ht, List.reverse_nil, List.nil_append, List.nil_append, Text.ofPoints_chars, Text.ofPoints_chars] at hs
  simpa [String.ofList_toList, eq_comm] using hs

/-! ### Lists of parts -/

theorem separated_cons (p : List Char) (ps : List (List Char)) :
    separated (p :: ps) = p ++ ps.flatMap fun q => ',' :: ' ' :: q := by
  induction ps generalizing p with
  | nil => simp [separated]
  | cons q ps ih => rw [separated, ih, List.flatMap_cons] <;> simp

section

variable {α : Type} {part : α → List Char} {close : Char}

/-- What follows a part is another one or the closing mark. -/
theorem noDigit_flatMap (hclose : close.isDigit = false) (l : List α) (r : List Char) :
    NoDigit ((l.map part).flatMap (fun q => ',' :: ' ' :: q) ++ close :: r) := by
  cases l with
  | nil => exact noDigit_cons hclose r
  | cons a l => exact noDigit_cons rfl _

/-- When no part is the start of another one, neither is a list of them with its closing mark. -/
theorem separated_append_inj {l l' : List α} {r r' : List Char} (hdigit : close.isDigit = false)
    (hcomma : close ≠ ',') (hhead : ∀ a, a ∈ l ∨ a ∈ l' → ∀ r, part a ++ r ≠ close :: r')
    (hhead' : ∀ a, a ∈ l ∨ a ∈ l' → ∀ r', part a ++ r' ≠ close :: r)
    (hpart : ∀ a ∈ l, ∀ b ∈ l', ∀ {r r'}, NoDigit r → NoDigit r' → part a ++ r = part b ++ r' → a = b ∧ r = r')
    (h : separated (l.map part) ++ close :: r = separated (l'.map part) ++ close :: r') :
    l = l' ∧ r = r' := by
  -- Behind the first part, every further one comes after a comma.
  have htail : ∀ l₁ l₂ : List α, (∀ a ∈ l₁, a ∈ l) → (∀ b ∈ l₂, b ∈ l') →
      (l₁.map part).flatMap (fun q => ',' :: ' ' :: q) ++ close :: r =
        (l₂.map part).flatMap (fun q => ',' :: ' ' :: q) ++ close :: r' → l₁ = l₂ ∧ r = r' := by
    intro l₁
    induction l₁ with
    | nil =>
      intro l₂ _ _ h
      cases l₂ with
      | nil => exact ⟨rfl, (List.cons.inj h).2⟩
      | cons b l₂ => exact absurd (List.cons.inj h).1 hcomma
    | cons a l₁ ih =>
      intro l₂ ha hb h
      cases l₂ with
      | nil => exact absurd (List.cons.inj h).1.symm hcomma
      | cons b l₂ =>
        simp only [List.map_cons, List.flatMap_cons, List.cons_append, List.append_assoc, List.cons.injEq,
          true_and] at h
        obtain ⟨hfirst, hrest⟩ := hpart a (ha a List.mem_cons_self) b (hb b List.mem_cons_self)
          (noDigit_flatMap hdigit l₁ r) (noDigit_flatMap hdigit l₂ r') h
        obtain ⟨rfl, hr⟩ := ih l₂ (fun x hx => ha x (List.mem_cons_of_mem _ hx))
          (fun x hx => hb x (List.mem_cons_of_mem _ hx)) hrest
        exact ⟨by rw [hfirst], hr⟩
  cases l with
  | nil =>
    cases l' with
    | nil => exact ⟨rfl, (List.cons.inj h).2⟩
    | cons b l' =>
      rw [List.map_cons, separated_cons, List.append_assoc] at h
      exact absurd h.symm (hhead' b (.inr List.mem_cons_self) _)
  | cons a l =>
    cases l' with
    | nil =>
      rw [List.map_cons, separated_cons, List.append_assoc] at h
      exact absurd h (hhead a (.inl List.mem_cons_self) _)
    | cons b l' =>
      rw [List.map_cons, List.map_cons, separated_cons, separated_cons, List.append_assoc,
        List.append_assoc] at h
      obtain ⟨hfirst, hrest⟩ := hpart a List.mem_cons_self b List.mem_cons_self
        (noDigit_flatMap hdigit l r) (noDigit_flatMap hdigit l' r') h
      obtain ⟨rfl, hr⟩ := htail l l' (fun x hx => List.mem_cons_of_mem _ hx)
        (fun x hx => List.mem_cons_of_mem _ hx) hrest
      exact ⟨by rw [hfirst], hr⟩

end

/-! ### Values -/

mutual

/-- No part of the value is a number with a point, and its texts are plain: the escapes of two surrogates
that stand side by side are those of one character. -/
def IsExact : Json → Prop
  | float _ => False
  | text t => ∃ s : String, t = s
  | list items => ItemsExact items
  | object members => MembersExact members
  | null | bool _ | int _ => True

def ItemsExact : List Json → Prop
  | [] => True
  | j :: r => IsExact j ∧ ItemsExact r

def MembersExact : List (Text × Json) → Prop
  | [] => True
  | (t, j) :: r => (∃ s : String, t = s) ∧ IsExact j ∧ MembersExact r

end

theorem itemsExact_iff {items : List Json} : ItemsExact items ↔ ∀ j ∈ items, j.IsExact := by
  induction items with
  | nil => simp [ItemsExact]
  | cons j r ih => simp [ItemsExact, ih]

theorem membersExact_iff {members : List (Text × Json)} :
    MembersExact members ↔ ∀ m ∈ members, (∃ s : String, m.1 = s) ∧ m.2.IsExact := by
  induction members with
  | nil => simp [MembersExact]
  | cons m r ih => simp [MembersExact, ih, and_assoc]

theorem itemChars_eq (items : List Json) : itemChars items = items.map chars := by
  induction items with
  | nil => rfl
  | cons j r ih => rw [itemChars, ih, List.map_cons]

/-- A member behind its name. -/
def memberText (m : Text × Json) : List Char := quoted m.1 ++ ':' :: ' ' :: m.2.chars

theorem memberChars_eq (members : List (Text × Json)) : memberChars members = members.map memberText := by
  induction members with
  | nil => rfl
  | cons m r ih => rw [memberChars, ih, List.map_cons, memberText]

/-- The kind of a value. -/
def rank : Json → Nat
  | null => 0
  | bool _ => 1
  | int _ => 2
  | float _ => 3
  | text _ => 4
  | list _ => 5
  | object _ => 6

/-- The kind of the value that a text begins with, if it begins with one. -/
def rankOf (c : Char) : Nat :=
  if c = 'n' then 0 else if c = 't' ∨ c = 'f' then 1 else if c = '"' then 4 else if c = '[' then 5
  else if c = '\x7b' then 6 else if c = '-' ∨ c.isDigit then 2 else 7

theorem rankOf_of_isDigit {c : Char} (h : c.isDigit = true) : rankOf c = 2 := by
  have hne : ∀ d : Char, d.isDigit = false → c ≠ d := by
    rintro d hd rfl
    rw [h] at hd
    cases hd
  simp [rankOf, hne, h]

/-- The first character of a value tells its kind. -/
theorem rankOf_head? {j : Json} (hj : j.IsExact) (r : List Char) :
    ((j.chars ++ r).head?).map rankOf = some j.rank := by
  cases j with
  | float x => exact hj.elim
  | bool b => cases b <;> rfl
  | int n =>
    rw [chars, toList_toString]
    split
    · cases hd : Nat.toDigits 10 n.natAbs with
      | nil => exact absurd hd Nat.toDigits_ne_nil
      | cons c cs =>
        have hc : c ∈ Nat.toDigits 10 n.natAbs := hd ▸ List.mem_cons_self
        simp [rankOf_of_isDigit (Nat.isDigit_of_mem_toDigits (by decide) (by decide) hc), rank]
    · rfl
  | null | text | list | object => rfl

theorem rank_eq_of_append_eq {j j' : Json} (hj : j.IsExact) (hj' : j'.IsExact) {r r' : List Char}
    (h : j.chars ++ r = j'.chars ++ r') : j.rank = j'.rank :=
  Option.some.inj (by rw [← rankOf_head? hj r, h, rankOf_head? hj' r'])

/-- No value begins with a closing bracket. -/
theorem chars_ne_bracket {j : Json} (hj : j.IsExact) (r r' : List Char) : j.chars ++ r ≠ ']' :: r' := by
  intro h
  have hrank := rankOf_head? hj r
  rw [h] at hrank
  cases j <;> cases hrank

/-- The text of a value is not the start of the text of another one. -/
theorem chars_append_inj (j j' : Json) {r r' : List Char} (hj : j.IsExact) (hj' : j'.IsExact) (hr : NoDigit r)
    (hr' : NoDigit r') (h : j.chars ++ r = j'.chars ++ r') : j = j' ∧ r = r' := by
  match j, j', rank_eq_of_append_eq hj hj' h with
  | null, null, _ => exact ⟨rfl, List.append_cancel_left h⟩
  | bool b, bool b', _ =>
    cases b <;> cases b'
    · exact ⟨rfl, List.append_cancel_left h⟩
    · cases (List.cons.inj h).1
    · cases (List.cons.inj h).1
    · exact ⟨rfl, List.append_cancel_left h⟩
  | int m, int n, _ =>
    obtain ⟨rfl, hrest⟩ := toString_append_inj hr hr' h
    exact ⟨rfl, hrest⟩
  | text s, text t, _ =>
    obtain ⟨s, rfl⟩ := hj
    obtain ⟨t, rfl⟩ := hj'
    obtain ⟨rfl, hrest⟩ := quoted_append_inj h
    exact ⟨rfl, hrest⟩
  | list items, list items', _ =>
    have hi := itemsExact_iff.1 hj
    have hi' := itemsExact_iff.1 hj'
    have hexact : ∀ a, a ∈ items ∨ a ∈ items' → a.IsExact := fun a ha => ha.elim (hi a) (hi' a)
    simp only [chars, itemChars_eq, List.cons_append, List.append_assoc, List.nil_append, List.cons.injEq,
      true_and] at h
    obtain ⟨rfl, hrest⟩ := separated_append_inj rfl (by decide)
      (fun a ha _ => chars_ne_bracket (hexact a ha) _ _) (fun a ha _ => chars_ne_bracket (hexact a ha) _ _)
      (fun a ha b hb _ _ => chars_append_inj a b (hi a ha) (hi' b hb)) h
    exact ⟨rfl, hrest⟩
  | object members, object members', _ =>
    have hm := membersExact_iff.1 hj
    have hm' := membersExact_iff.1 hj'
    have hquote : ∀ (m : Text × Json) (r r' : List Char), memberText m ++ r ≠ '\x7d' :: r' :=
      fun m r r' h => absurd (List.cons.inj h).1 (by decide)
    simp only [chars, memberChars_eq, List.cons_append, List.append_assoc, List.nil_append, List.cons.injEq,
      true_and] at h
    obtain ⟨rfl, hrest⟩ := separated_append_inj rfl (by decide) (fun m _ _ => hquote m _ _)
      (fun m _ _ => hquote m _ _) (fun m hmem m' hmem' {r r'} hr hr' h => by
        obtain ⟨⟨s, hs⟩, hexact⟩ := hm m hmem
        obtain ⟨⟨t, ht⟩, hexact'⟩ := hm' m' hmem'
        simp only [memberText, hs, ht, List.append_assoc, List.cons_append] at h
        obtain ⟨rfl, hvalue⟩ := quoted_append_inj h
        simp only [List.cons.injEq, true_and] at hvalue
        obtain ⟨hjson, hrest⟩ := chars_append_inj m.2 m'.2 hexact hexact' hr hr' hvalue
        exact ⟨Prod.ext (hs.trans ht.symm) hjson, hrest⟩) h
    exact ⟨rfl, hrest⟩
termination_by sizeOf j
decreasing_by
  · have := List.sizeOf_lt_of_mem ha
    simp only [list.sizeOf_spec]
    omega
  · have := List.sizeOf_lt_of_mem hmem
    have : sizeOf m = 1 + sizeOf m.1 + sizeOf m.2 := rfl
    simp only [object.sizeOf_spec]
    omega

/-- Values whose texts are equal are equal. -/
theorem print_inj {j j' : Json} (hj : j.IsExact) (hj' : j'.IsExact) (h : j.print = j'.print) : j = j' := by
  have hchars : j.chars ++ [] = j'.chars ++ [] := by simpa [print] using congrArg String.toList h
  have hnone : NoDigit [] := nofun
  exact (chars_append_inj j j' hj hj' hnone hnone hchars).1

end TrialLedger.Json
