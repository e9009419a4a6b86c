import Mathlib
import TrialLedger.Fixture.Account

/-! Reading at different places. A place is named in errors alone, so a value that stands at one place reads
the same as at every other one: if it can be read, the same is read, and if not, the same is wrong with it. -/

namespace TrialLedger.Fixture

variable {α β : Type} (ctx : Context) (path path' : Text)

/-! ### Results -/

@[simp] theorem toOption_ok (a : α) : (Except.ok a : Read α).toOption = some a := rfl

@[simp] theorem toOption_bind (x : Read α) (f : α → Read β) :
    (x >>= f).toOption = x.toOption.bind fun a => (f a).toOption := by
  cases x <;> rfl

theorem toOption_eq_some {x : Read α} {a : α} : x.toOption = some a ↔ x = .ok a := by
  cases x <;> simp [Except.toOption]

theorem bind_eq_ok {x : Read α} {f : α → Read β} {b : β} :
    (x >>= f) = .ok b ↔ ∃ a, x = .ok a ∧ f a = .ok b := by
  cases x <;> simp [bind, Except.bind]

/-- The error without the place that it names. -/
def ReadError.unplaced : ReadError → ReadError
  | misread _ flaw => misread "" flaw
  | e => e

/-- A result of reading, but for the place of an error. -/
def unplaced (x : Read α) : Read α := x.mapError ReadError.unplaced

@[simp] theorem unplaced_misread (flaw : Flaw) : unplaced (misread path flaw : Read α) = misread "" flaw := rfl

@[simp] theorem unplaced_pure (a : α) : unplaced (pure a : Read α) = pure a := rfl

@[simp] theorem unplaced_bind (x : Read α) (f : α → Read β) :
    unplaced (x >>= f) = unplaced x >>= fun a => unplaced (f a) := by
  cases x <;> rfl

@[simp] theorem unplaced_map (x : Read α) (f : α → β) : unplaced (x.map f) = (unplaced x).map f := by
  cases x <;> rfl

@[simp] theorem unplaced_functor (f : α → β) (x : Read α) : unplaced (f <$> x) = f <$> unplaced x := by
  cases x <;> rfl

@[simp] theorem unplaced_ite (c : Prop) [Decidable c] (x y : Read α) :
    unplaced (if c then x else y) = if c then unplaced x else unplaced y := apply_ite _ c x y

theorem toOption_congr {x y : Read α} (h : unplaced x = unplaced y) : x.toOption = y.toOption := by
  have htoOption : ∀ x : Read α, (unplaced x).toOption = x.toOption := fun x => by cases x <;> rfl
  rw [← htoOption x, h, htoOption y]

/-- What can be read at one place reads the same at another one. -/
theorem ok_of_unplaced_eq {x y : Read α} (h : unplaced x = unplaced y) {a : α} (hx : x = .ok a) : y = .ok a :=
  toOption_eq_some.1 ((toOption_congr h).symm.trans (toOption_eq_some.2 hx))

/-! ### Literals -/

theorem unplaced_number (t : Text) : unplaced (number path t) = unplaced (number path' t) := by
  unfold number
  cases number? t <;> rfl

theorem unplaced_paddedName (room : Nat) (t : Text) :
    unplaced (paddedName path room t) = unplaced (paddedName path' room t) := by
  simp [paddedName]

theorem unplaced_fixedNumber (encode : Int → Except Codec.Error Bytes) (t : Text) :
    unplaced (fixedNumber path encode t) = unplaced (fixedNumber path' encode t) := by
  have hencode : ∀ n, unplaced ((encode n).mapError fun e => ReadError.misread path (.unfit e)) =
      unplaced ((encode n).mapError fun e => ReadError.misread path' (.unfit e)) := by
    intro n
    cases encode n <;> rfl
  simp only [fixedNumber, unplaced_bind, unplaced_number path path', hencode]

theorem unplaced_hexBytes (whole t : Text) : unplaced (hexBytes path whole t) = unplaced (hexBytes path' whole t) := by
  unfold hexBytes
  cases t.plain?.bind Bytes.ofHex? <;> rfl

theorem unplaced_opening (whole : Text) (o : Opening) (t : Text) :
    unplaced (o.read ctx path whole t) = unplaced (o.read ctx path' whole t) := by
  cases o with
  | text => rfl
  | name zeros room => simp [Opening.read, unplaced_paddedName path path']
  | file => rfl
  | fixed encode => exact unplaced_fixedNumber path path' encode t
  | hex => exact unplaced_hexBytes path path' whole t

theorem unplaced_bareLiteral (t : Text) : unplaced (bareLiteral path t) = unplaced (bareLiteral path' t) := by
  cases t <;> simp [bareLiteral, unplaced_number path path']

theorem unplaced_simpleLiteral (ps : List Point) :
    unplaced (simpleLiteral ctx path ps) = unplaced (simpleLiteral ctx path' ps) := by
  unfold simpleLiteral
  cases opened? ps with
  | none => exact unplaced_bareLiteral path path' _
  | some o => exact unplaced_opening ctx path path' _ o.1 o.2

theorem unplaced_textAmount (t : Text) {b b' : Read Bytes} (h : unplaced b = unplaced b') :
    unplaced (textAmount path t b) = unplaced (textAmount path' t b') := by
  unfold textAmount
  cases numeral? t <;> simp [unplaced_number path path', h]

theorem unplaced_literal (ps : List Point) : unplaced (literal ctx path ps) = unplaced (literal ctx path' ps) := by
  fun_induction literal ctx path ps with
  | case1 r ih => rw [literal, unplaced_bind, unplaced_bind, ih]
  | case2 r ih => rw [literal, unplaced_bind, unplaced_bind, unplaced_textAmount path path' _ ih]
  | case3 ps hnested hbiguint => rw [literal.eq_3 ctx path' ps hnested hbiguint, unplaced_simpleLiteral ctx path path']

theorem unplaced_joined (l : List (List Point)) : unplaced (joined ctx path l) = unplaced (joined ctx path' l) := by
  induction l with
  | nil => rfl
  | cons ps r ih => simp [joined, unplaced_literal ctx path path', ih]

/-! ### Values -/

mutual

/-- What is read of a value does not depend on the place where it stands. -/
theorem unplaced_readBytes (path path' : Text) :
    ∀ j, unplaced (readBytes ctx path j) = unplaced (readBytes ctx path' j)
  | .null | .bool _ | .int _ | .float _ | .object _ => rfl
  | .text _ => unplaced_joined ctx path path' _
  | .list items => unplaced_readListBytes path path' 0 0 items

theorem unplaced_readListBytes (path path' : Text) (i i' : Nat) :
    ∀ items, unplaced (readListBytes ctx path i items) = unplaced (readListBytes ctx path' i' items)
  | [] => rfl
  | j :: r => by
    have hj := unplaced_readBytes (item path i) (item path' i') j
    have hr := unplaced_readListBytes path path' (i + 1) (i' + 1) r
    simp only [readListBytes, unplaced_bind, hj, hr]

end

theorem unplaced_readAmount (j : Json) : unplaced (readAmount ctx path j) = unplaced (readAmount ctx path' j) := by
  have hbytes := unplaced_readBytes ctx path path' j
  cases j with
  | null => rfl
  | int n => simp [readAmount]
  | text s => exact unplaced_textAmount path path' _ hbytes
  | bool b => simp [readAmount, hbytes]
  | float x => simp [readAmount, hbytes]
  | list items => simp [readAmount, hbytes]
  | object members => simp [readAmount, hbytes]

theorem unplaced_readU64 (j : Json) : unplaced (readU64 ctx path j) = unplaced (readU64 ctx path' j) := by
  simp [readU64, unplaced_readAmount ctx path path']

theorem unplaced_readAddress (j : Json) : unplaced (readAddress ctx path j) = unplaced (readAddress ctx path' j) := by
  simp [readAddress, unplaced_readBytes ctx path path']

theorem unplaced_readCode (j : Json) : unplaced (readCode ctx path j) = unplaced (readCode ctx path' j) := by
  cases j <;> simp [readCode]

/-! ### Holdings -/

theorem unplaced_readItems {read : Text → α → Read β}
    (h : ∀ path path' a, unplaced (read path a) = unplaced (read path' a)) (path path' : Text) (i : Nat) (l : List α) :
    unplaced (readItems read path i l) = unplaced (readItems read path' i l) := by
  induction l generalizing i with
  | nil => rfl
  | cons a r ih => simp [readItems, h _ (item path' i), ih]

theorem unplaced_readInstance (j : Json) :
    unplaced (readInstance ctx path j) = unplaced (readInstance ctx path' j) := by
  cases j with
  | object members =>
    simp only [readInstance, unplaced_bind, unplaced_readU64 ctx _ (member path' "nonce"),
      unplaced_readAmount ctx _ (member path' "balance")]
  | _ => rfl

theorem unplaced_readHoldings (j : Json) :
    unplaced (readHoldings ctx path j) = unplaced (readHoldings ctx path' j) := by
  have hamount := unplaced_readAmount ctx path path'
  cases j with
  | object members =>
    have hitems := unplaced_readItems (unplaced_readInstance ctx) (member path "instances") (member path' "instances") 0
    simp only [readHoldings]
    cases (members.map Prod.fst).filter (· != .plain "instances") with
    | nil => simp [hitems]
    | cons name names => rfl
  | _ => simp [readHoldings, hamount]

end TrialLedger.Fixture
