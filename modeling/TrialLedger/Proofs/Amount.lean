import TrialLedger.Amount

/-! Whole amounts among the amounts, and their numbers. -/

namespace TrialLedger

namespace Amount

/-- The amount has no point. -/
def IsWhole (a : Amount) : Prop := ∃ n, a = whole n

/-- The amount is whole and no less than nothing. -/
def IsNatural (a : Amount) : Prop := ∃ n : Nat, a = n

/-- The number of a whole amount; one with a point counts for nothing. -/
def int : Amount → Int
  | whole n => n
  | real _ => 0

@[simp] theorem int_whole (n : Int) : (whole n).int = n := rfl

theorem IsWhole.eq {a : Amount} (h : a.IsWhole) : a = whole a.int := by
  obtain ⟨n, rfl⟩ := h
  rfl

/-- What is taken off a whole amount and put back. -/
theorem plus_of_minus {a b left a' : Amount} (ha : a.IsWhole) (hb : b.IsWhole) (h : a.minus b = .ok left)
    (h' : left.plus b = .ok a') : a' = a := by
  obtain ⟨m, rfl⟩ := ha
  obtain ⟨n, rfl⟩ := hb
  rw [minus_whole] at h
  obtain rfl := Except.ok.inj h
  rw [plus_whole, Int.sub_add_cancel] at h'
  exact (Except.ok.inj h').symm

theorem whole_sub {m n : Nat} (h : n ≤ m) : whole ((m : Int) - n) = ((m - n : Nat) : Amount) :=
  congrArg whole (Int.ofNat_sub h).symm

end Amount

/-- The value is no number with a point. -/
def Value.IsPointless (v : Value) : Prop := ∀ x, v ≠ .float x

theorem Value.IsPointless.isWhole {v : Value} (h : v.IsPointless) {a : Amount}
    (ha : Amount.ofValue? v = some a) : a.IsWhole := by
  cases v with
  | float x => exact absurd rfl (h x)
  | bool b => exact ⟨_, (Option.some.inj ha).symm⟩
  | int n => exact ⟨_, (Option.some.inj ha).symm⟩
  | _ => cases ha

end TrialLedger
