import Mathlib
import TrialLedger.Proofs.Table
import TrialLedger.World.Basic

/-! Worlds that hold the same. The order in which accounts, holdings and stored values came plays no part. -/

namespace TrialLedger

/-- Both tables have the same keys, and under each of them they have related values. -/
structure Table.Alike {κ ν : Type} [DecidableEq κ] (R : ν → ν → Prop) (t t' : Table κ ν) : Prop where
  contains : ∀ k, t.contains k = t'.contains k
  related : ∀ {k v v'}, t.get? k = some v → t'.get? k = some v' → R v v'

namespace Table.Alike

variable {κ ν : Type} [DecidableEq κ] {R : ν → ν → Prop} {t t' : Table κ ν}

/-- What is found in one table is found in the other one, and they are related. -/
theorem exists_of_get? (h : Alike R t t') {k : κ} {v : ν} (hv : t.get? k = some v) :
    ∃ v', t'.get? k = some v' ∧ R v v' := by
  have hc := h.contains k
  rw [Table.contains, hv, Option.isSome_some, eq_comm] at hc
  obtain ⟨v', hv'⟩ := Option.isSome_iff_exists.1 hc
  exact ⟨v', hv', h.related hv hv'⟩

theorem symm (hR : ∀ {v v'}, R v v' → R v' v) (h : Alike R t t') : Alike R t' t :=
  ⟨fun k => (h.contains k).symm, fun hv hv' => hR (h.related hv' hv)⟩

theorem empty : Alike R (Table.empty : Table κ ν) Table.empty :=
  ⟨fun _ => rfl, fun hv _ => absurd hv nofun⟩

theorem put (h : Alike R t t') {k : κ} {v v' : ν} (hv : R v v') : Alike R (t.put k v) (t'.put k v') := by
  refine ⟨fun j => ?_, fun {j w w'} hw hw' => ?_⟩
  · rw [Table.contains, Table.contains, get?_put, get?_put]
    split
    · rfl
    · exact h.contains j
  · rw [get?_put] at hw hw'
    by_cases hj : j = k
    · rw [if_pos hj] at hw hw'
      obtain rfl := Option.some.inj hw
      obtain rfl := Option.some.inj hw'
      exact hv
    · rw [if_neg hj] at hw hw'
      exact h.related hw hw'

end Table.Alike

/-- Both accounts hold the same, in whatever order it came. -/
structure Account.Same (a b : Account) : Prop where
  nonce : a.nonce = b.nonce
  balance : a.balance = b.balance
  dct : ∀ k, a.dct.get? k = b.dct.get? k
  storage : ∀ k, a.storage.get? k = b.storage.get? k
  code : a.code = b.code
  owner : a.owner = b.owner

theorem Account.Same.symm {a b : Account} (h : a.Same b) : b.Same a :=
  ⟨h.nonce.symm, h.balance.symm, fun k => (h.dct k).symm, fun k => (h.storage k).symm, h.code.symm,
    h.owner.symm⟩

/-- Both stray accounts have one name and hold the same. -/
structure Stray.Same (s t : Stray) : Prop where
  name : s.name = t.name
  account : s.account.Same t.account

/-- Both worlds have accounts at the same places, and these hold the same. -/
structure World.Same (w w' : World) : Prop where
  accounts : w.accounts.Alike Account.Same w'.accounts
  strays : w.strays.Alike Stray.Same w'.strays

theorem World.Same.symm {w w' : World} (h : w.Same w') : w'.Same w :=
  ⟨h.accounts.symm Account.Same.symm, h.strays.symm fun h => ⟨h.name.symm, h.account.symm⟩⟩

end TrialLedger
