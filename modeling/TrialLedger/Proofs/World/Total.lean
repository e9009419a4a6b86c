import Mathlib
import TrialLedger.Proofs.Amount
import TrialLedger.Proofs.Table
import TrialLedger.Proofs.World.Transfer
import TrialLedger.Program

/-! How much of each asset a world holds over all its accounts. A change of one account changes
the totals as it changes the account, so a transfer leaves every total as it was: what the
sender loses the receiver gains, also when they are one account. -/

namespace TrialLedger

/-- A change by a number in one asset alone. -/
def Asset.only (x : Asset) (n : Int) : Asset → Int := fun y => if y = x then n else 0

/-! ### Accounts -/

namespace Account

/-- The account holds whole amounts only. -/
def IsWhole (a : Account) : Prop := ∀ x, (a.amount x).IsWhole

/-- The second account holds whole amounts, which are those of the first with the given changes. -/
structure Gains (d : Asset → Int) (a a' : Account) : Prop where
  isWhole : a'.IsWhole
  amount_eq : ∀ x, a'.amount x = .whole ((a.amount x).int + d x)

theorem Gains.of_amount_eq {d : Asset → Int} {a a' : Account}
    (h : ∀ x, a'.amount x = .whole ((a.amount x).int + d x)) : Gains d a a' :=
  ⟨fun x => ⟨_, h x⟩, h⟩

theorem amount_empty (x : Asset) : ({} : Account).amount x = .whole 0 := by
  cases x <;> rfl

theorem isWhole_empty : ({} : Account).IsWhole := fun x => ⟨0, amount_empty x⟩

variable {a : Account}

theorem amount_balance (b : Amount) (x : Asset) :
    ({ a with balance := b } : Account).amount x = if x = .native then b else a.amount x := by
  cases x <;> rfl

theorem amount_hold (id : Bytes) (nonce : Nonce) (b : Amount) (x : Asset) :
    (a.hold id nonce b).amount x = if x = .issued id nonce.key then b else a.amount x := by
  cases x with
  | native => rfl
  | issued id' k =>
    simp only [amount, held, hold, Table.get?_put, Prod.mk.injEq, Asset.issued.injEq]
    split <;> rfl

theorem amount_erase (id : Bytes) (k : Key) (x : Asset) :
    ({ a with dct := a.dct.erase (id, k) } : Account).amount x =
      if x = .issued id k then 0 else a.amount x := by
  cases x with
  | native => rfl
  | issued id' k' =>
    simp only [amount, held, Table.get?_erase, Prod.mk.injEq, Asset.issued.injEq]
    split <;> rfl

/-- An account whose amount in one asset is set to a new one gains the difference there. -/
theorem Gains.of_set {a' : Account} {x : Asset} {m n : Int} (ha : a.IsWhole) (hm : a.amount x = .whole m)
    (h : ∀ y, a'.amount y = if y = x then .whole (m + n) else a.amount y) :
    Gains (Asset.only x n) a a' := by
  refine .of_amount_eq fun y => ?_
  rw [h y, Asset.only]
  by_cases hy : y = x
  · simp [hy, hm]
  · rw [if_neg hy, if_neg hy, add_zero]
    exact (ha y).eq

theorem withdraw_gains (ha : a.IsWhole) (n : Int) :
    ∃ a', withdraw (.whole n) a = .ok a' ∧ Gains (Asset.only .native (-n)) a a' := by
  obtain ⟨m, hm⟩ := ha .native
  have hb : a.balance = .whole m := hm
  exact ⟨_, by rw [withdraw, hb]; rfl, .of_set ha hm (amount_balance _)⟩

theorem deposit_gains (ha : a.IsWhole) (n : Int) :
    ∃ a', deposit (.whole n) a = .ok a' ∧ Gains (Asset.only .native n) a a' := by
  obtain ⟨m, hm⟩ := ha .native
  have hb : a.balance = .whole m := hm
  exact ⟨_, by rw [deposit, hb]; rfl, .of_set ha hm (amount_balance _)⟩

theorem debit_gains (ha : a.IsWhole) (id : Bytes) (nonce : Nonce) (n : Int) :
    ∃ a', debit id nonce (.whole n) a = .ok a' ∧ Gains (Asset.only (.issued id nonce.key) (-n)) a a' := by
  obtain ⟨m, hm⟩ := ha (.issued id nonce.key)
  have hb : a.held id nonce.key = .whole m := hm
  by_cases h : m = n
  · refine ⟨{ a with dct := a.dct.erase (id, nonce.key) }, by simp [debit, hb, h],
      .of_set ha hm fun y => ?_⟩
    rw [amount_erase, h, add_neg_cancel]
    rfl
  · exact ⟨a.hold id nonce (.whole (m - n)), by simp [debit, hb, h, bind, Except.bind, pure, Except.pure],
      .of_set ha hm (amount_hold _ _ _)⟩

theorem credit_gains (ha : a.IsWhole) (id : Bytes) (nonce : Nonce) (n : Int) :
    ∃ a', credit id nonce (.whole n) a = .ok a' ∧ Gains (Asset.only (.issued id nonce.key) n) a a' := by
  obtain ⟨m, hm⟩ := ha (.issued id nonce.key)
  have hb : a.held id nonce.key = .whole m := hm
  exact ⟨_, by rw [credit, hb]; rfl, .of_set ha hm (amount_hold _ _ _)⟩

theorem take_gains (ha : a.IsWhole) (token : Token) (nonce : Nonce) (n : Int) :
    ∃ a', take token nonce (.whole n) a = .ok a' ∧
      Gains (Asset.only (token.asset nonce.key) (-n)) a a' := by
  cases token with
  | native => exact withdraw_gains ha n
  | issued id => exact debit_gains ha id nonce n

theorem give_gains (ha : a.IsWhole) (token : Token) (nonce : Nonce) (n : Int) :
    ∃ a', give token nonce (.whole n) a = .ok a' ∧ Gains (Asset.only (token.asset nonce.key) n) a a' := by
  cases token with
  | native => exact deposit_gains ha n
  | issued id => exact credit_gains ha id nonce n

end Account

/-! ### Worlds -/

/-- An account can be found or opened at the place. -/
def Place.IsOpen : Place → Prop
  | .address _ => True
  | .astray name => ∃ k, Key.ofValue name = .ok k

theorem Place.isOpen_address (b : Bytes) : (Place.address b).IsOpen := trivial

/-- What a contract sends is no number with a point. -/
def Request.SendsWhole : Request → Prop
  | .send _ _ _ amount => amount.IsPointless
  | _ => True

/-- What a contract sends goes where an account can be. -/
def Request.SendsOpen : Request → Prop
  | .send receiver _ _ _ => (Place.ofValue receiver).IsOpen
  | _ => True

namespace World

/-- How much all accounts together hold of an asset. -/
def total (w : World) (x : Asset) : Int :=
  w.accounts.sum (fun a => (a.amount x).int) + w.strays.sum fun s => (s.account.amount x).int

/-- All accounts hold whole amounts only. -/
def IsWhole (w : World) : Prop :=
  (∀ e ∈ w.accounts.entries, e.2.IsWhole) ∧ ∀ e ∈ w.strays.entries, e.2.account.IsWhole

/-- The second world holds whole amounts, and its totals are those of the first with the given
changes. -/
structure Gains (d : Asset → Int) (w w' : World) : Prop where
  isWhole : w'.IsWhole
  total_eq : ∀ x, w'.total x = w.total x + d x

variable {w w' w'' : World} {d d' : Asset → Int}

theorem Gains.refl (hw : w.IsWhole) : Gains 0 w w := ⟨hw, fun _ => by simp⟩

theorem Gains.trans (h : Gains d w w') (h' : Gains d' w' w'') : Gains (d + d') w w'' :=
  ⟨h'.isWhole, fun x => by rw [h'.total_eq, h.total_eq, Pi.add_apply, add_assoc]⟩

theorem Gains.trans_zero (h : Gains 0 w w') (h' : Gains 0 w' w'') : Gains 0 w w'' := by
  simpa only [add_zero] using h.trans h'

theorem IsWhole.account (hw : w.IsWhole) (b : Bytes) : (w.account b).IsWhole :=
  All.account Account.isWhole_empty hw b

/-- A change of one account changes the totals alike. -/
theorem setAccount_gains (hw : w.IsWhole) {b : Bytes} {a : Account} (h : (w.account b).Gains d a) :
    w.Gains d (w.setAccount b a) := by
  refine ⟨⟨fun e he => ?_, hw.2⟩, fun x => ?_⟩
  · rcases Table.mem_putEntry he with rfl | he
    · exact h.isWhole
    · exact hw.1 e he
  · have hold : ((w.accounts.get? b).map fun a => (a.amount x).int).getD 0 =
        ((w.account b).amount x).int := by
      unfold World.account account?
      cases w.accounts.get? b with
      | none => rw [Option.getD_none, Account.amount_empty]; rfl
      | some a => rfl
    simp only [total, setAccount, Table.sum_put, hold, h.amount_eq, Amount.int_whole]
    omega

theorem touch_gains (hw : w.IsWhole) (b : Bytes) : w.Gains 0 (w.touch b) := by
  unfold touch
  split
  · exact .refl hw
  · rename_i h
    refine setAccount_gains hw (.of_amount_eq fun x => ?_)
    rw [World.account, h, Option.getD_none, Account.amount_empty]
    rfl

theorem change_gains {place : Place} {f : Account → Except Fault Account} (hp : place.IsOpen)
    (hw : w.IsWhole) (hf : ∀ {a : Account}, a.IsWhole → ∃ a', f a = .ok a' ∧ a.Gains d a') :
    ∃ w', change place f w = (.ok (), w') ∧ w.Gains d w' := by
  cases place with
  | address b =>
    obtain ⟨a, ha, hd⟩ := hf (hw.account b)
    exact ⟨w.setAccount b a, by simp [change, ha], setAccount_gains hw hd⟩
  | astray name =>
    obtain ⟨k, hk⟩ := hp
    set s := (w.strays.get? k).getD ⟨name, {}⟩ with hs
    have hwhole : s.account.IsWhole := All.stray Account.isWhole_empty hw k name
    obtain ⟨a, ha, hd⟩ := hf hwhole
    refine ⟨{ w with strays := w.strays.put k { s with account := a } }, by simp [change, hk, ← hs, ha],
      ⟨hw.1, fun e he => ?_⟩, fun x => ?_⟩
    · rcases Table.mem_putEntry he with rfl | he
      · exact hd.isWhole
      · exact hw.2 e he
    · have hold : ((w.strays.get? k).map fun s => (s.account.amount x).int).getD 0 =
          (s.account.amount x).int := by
        cases h : w.strays.get? k with
        | none => rw [hs, h, Option.getD_none, Account.amount_empty]; rfl
        | some s' => rw [hs, h]; rfl
      simp only [total, Table.sum_put, hold, hd.amount_eq, Amount.int_whole]
      omega

/-! ### Transfers -/

variable {sender : Bytes} {receiver : Place}

/-- Taking from one account and giving to another leaves the totals as they were, also when both
are one account, which the second change finds as the first one left it. -/
theorem move_gains {x : Asset} {n : Int} {take give : Account → Except Fault Account}
    (hp : receiver.IsOpen)
    (hw : w.IsWhole)
    (ht : ∀ {a : Account}, a.IsWhole → ∃ a', take a = .ok a' ∧ a.Gains (Asset.only x (-n)) a')
    (hg : ∀ {a : Account}, a.IsWhole → ∃ a', give a = .ok a' ∧ a.Gains (Asset.only x n) a') :
    w.Gains 0 ((do change sender take; change receiver give : Action World Unit) w).2 := by
  obtain ⟨w₁, h₁, g₁⟩ := change_gains (Place.isOpen_address sender) hw ht
  obtain ⟨w₂, h₂, g₂⟩ := change_gains hp g₁.isWhole hg
  rw [Action.bind_ok h₁, h₂]
  have hd : Asset.only x (-n) + Asset.only x n = 0 := by
    funext y
    simp only [Pi.add_apply, Asset.only]
    split <;> simp
  exact hd ▸ g₁.trans g₂

theorem transfer_gains (hp : receiver.IsOpen) (token : Token) (nonce : Nonce) (n : Int)
    (hw : w.IsWhole) : w.Gains 0 (transfer sender receiver token nonce (.whole n) w).2 := by
  have htouch := touch_gains hw sender
  rw [transfer_apply]
  split
  · exact .refl hw
  · split
    · exact htouch
    · exact htouch.trans_zero (move_gains hp htouch.isWhole
        (fun ha => Account.take_gains ha token nonce n) fun ha => Account.give_gains ha token nonce n)

open TrialLedger.Action (Preserves) in
/-- A transfer of a whole amount leaves whole amounts, wherever it goes and however it ends. -/
theorem transfer_isWhole (sender : Bytes) (receiver : Place) (token : Token) (nonce : Nonce) (n : Int) :
    Preserves IsWhole (transfer sender receiver token nonce (.whole n)) := by
  intro w hw
  have htouch : (w.touch sender).IsWhole := (touch_gains hw sender).isWhole
  have htake : Preserves IsWhole (change (.address sender) (Account.take token nonce (.whole n))) :=
    change_all Account.isWhole_empty (fun ha h => by
      obtain ⟨a', ha', hgains⟩ := Account.take_gains ha token nonce n
      obtain rfl := Except.ok.inj (h.symm.trans ha')
      exact hgains.isWhole) _
  have hgive : Preserves IsWhole (change receiver (Account.give token nonce (.whole n))) :=
    change_all Account.isWhole_empty (fun ha h => by
      obtain ⟨a', ha', hgains⟩ := Account.give_gains ha token nonce n
      obtain rfl := Except.ok.inj (h.symm.trans ha')
      exact hgains.isWhole) _
  rw [transfer_apply]
  split
  · exact hw
  · split
    · exact htouch
    · exact htake.bind (fun _ => hgive) _ htouch

theorem storageSet_gains (hw : w.IsWhole) (address key value : Bytes) :
    w.Gains 0 (w.storageSet address key value) := by
  refine setAccount_gains hw (.of_amount_eq fun x => ?_)
  rw [show Account.amount _ x = (w.account address).amount x by cases x <;> rfl, Pi.zero_apply, add_zero]
  exact (hw.account address x).eq

end World

end TrialLedger
