import TrialLedger.Proofs.Engine.Stable
import TrialLedger.Proofs.World.Moved

/-! Well-formed worlds: no balance lies below zero, and nothing is stored for a token balance of zero
or an empty storage value. Writes to storage and transfers of natural amounts keep worlds well
formed. A transfer of less than nothing passes every check of funds, and what it moves is taken from the
receiver. -/

namespace TrialLedger

/-! ### Accounts -/

namespace Account

/-- Amounts are natural numbers, and what would read as zero or as empty is not stored. -/
structure WellFormed (a : Account) : Prop where
  balance : ∃ n : Nat, a.balance = n
  dct : ∀ e ∈ a.dct.entries, ∃ n : Nat, 0 < n ∧ e.2.amount = n
  storage : ∀ e ∈ a.storage.entries, e.2 ≠ []

theorem wellFormed_empty : ({} : Account).WellFormed := ⟨⟨0, rfl⟩, nofun, nofun⟩

namespace WellFormed

variable {a a' : Account}

theorem held (h : a.WellFormed) (id : Bytes) (k : Key) : ∃ n : Nat, a.held id k = n := by
  unfold Account.held
  cases hk : a.dct.get? (id, k) with
  | none => exact ⟨0, rfl⟩
  | some holding =>
    obtain ⟨n, -, hn⟩ := h.dct _ (Table.mem_of_lookup_eq_some hk)
    exact ⟨n, hn⟩

theorem amount (h : a.WellFormed) (x : Asset) : ∃ n : Nat, a.amount x = n := by
  cases x with
  | native => exact h.balance
  | issued id k => exact h.held id k

theorem isWhole (h : a.WellFormed) : a.IsWhole := fun x =>
  let ⟨n, hn⟩ := h.amount x
  ⟨n, hn⟩

/-- No account holds less than nothing of an asset. -/
theorem amount_nonneg (h : a.WellFormed) (x : Asset) : 0 ≤ (a.amount x).int := by
  obtain ⟨n, hn⟩ := h.amount x
  rw [hn, Amount.int_whole]
  exact Int.natCast_nonneg n

/-- A new amount of a token that is above zero. -/
theorem hold (h : a.WellFormed) (id : Bytes) (nonce : Nonce) {n : Nat} (hn : 0 < n) :
    (a.hold id nonce n).WellFormed := by
  refine ⟨h.balance, fun e he => ?_, h.storage⟩
  rcases Table.mem_putEntry he with rfl | he
  · exact ⟨n, hn, rfl⟩
  · exact h.dct e he

theorem withdraw (h : a.WellFormed) {n : Nat} (hf : a.balance.lt n = false)
    (ha : Account.withdraw n a = .ok a') : a'.WellFormed := by
  obtain ⟨m, hm⟩ := h.balance
  rw [hm, Amount.lt_whole, decide_eq_false_iff_not] at hf
  rw [Account.withdraw, hm, Amount.minus_whole] at ha
  cases ha
  exact ⟨⟨m - n, Amount.whole_sub (by omega)⟩, h.dct, h.storage⟩

theorem deposit (h : a.WellFormed) {n : Nat} (ha : Account.deposit n a = .ok a') : a'.WellFormed := by
  obtain ⟨m, hm⟩ := h.balance
  rw [Account.deposit, hm, Amount.plus_whole] at ha
  cases ha
  exact ⟨⟨m + n, rfl⟩, h.dct, h.storage⟩

theorem debit (h : a.WellFormed) {id : Bytes} {nonce : Nonce} {n : Nat}
    (hf : (a.held id nonce.key).lt n = false) (ha : Account.debit id nonce n a = .ok a') :
    a'.WellFormed := by
  obtain ⟨m, hm⟩ := h.held id nonce.key
  rw [hm, Amount.lt_whole, decide_eq_false_iff_not] at hf
  rw [Account.debit, hm] at ha
  simp only [Amount.same_whole, decide_eq_true_eq, Amount.minus_whole] at ha
  split at ha
  · cases ha
    exact ⟨h.balance, fun e he => h.dct e (List.mem_of_mem_filter he), h.storage⟩
  · rename_i hne
    cases ha
    rw [Amount.whole_sub (by omega)]
    exact h.hold id nonce (by omega)

theorem credit (h : a.WellFormed) {id : Bytes} {nonce : Nonce} {n : Nat} (hn : 0 < n)
    (ha : Account.credit id nonce n a = .ok a') : a'.WellFormed := by
  obtain ⟨m, hm⟩ := h.held id nonce.key
  rw [Account.credit, hm, Amount.plus_whole] at ha
  cases ha
  exact h.hold id nonce (n := m + n) (by omega)

theorem take (h : a.WellFormed) {token : Token} {nonce : Nonce} {n : Nat}
    (hf : (a.amount (token.asset nonce.key)).lt n = false) (ha : Account.take token nonce n a = .ok a') :
    a'.WellFormed := by
  cases token with
  | native => exact h.withdraw hf ha
  | issued id => exact h.debit hf ha

theorem give (h : a.WellFormed) {token : Token} {nonce : Nonce} {n : Nat} (hn : 0 < n)
    (ha : Account.give token nonce n a = .ok a') : a'.WellFormed := by
  cases token with
  | native => exact h.deposit ha
  | issued id => exact h.credit hn ha

end WellFormed

end Account

/-! ### Worlds -/

/-- What a contract sends is no less than nothing. -/
def Request.SendsNatural : Request → Prop
  | .send _ _ _ amount => ∀ a, Amount.ofValue? amount = some a → ∃ n : Nat, a = n
  | _ => True

namespace World

open TrialLedger.Action (Preserves)

/-- All accounts are well formed. -/
structure WellFormed (w : World) : Prop where
  accounts : ∀ e ∈ w.accounts.entries, e.2.WellFormed
  strays : ∀ e ∈ w.strays.entries, e.2.account.WellFormed

variable {w : World}

theorem wellFormed_iff_all : w.WellFormed ↔ w.All Account.WellFormed :=
  ⟨fun h => ⟨h.accounts, h.strays⟩, fun h => ⟨h.1, h.2⟩⟩

theorem WellFormed.account (h : w.WellFormed) (b : Bytes) : (w.account b).WellFormed :=
  (wellFormed_iff_all.1 h).account Account.wellFormed_empty b

theorem WellFormed.setAccount (h : w.WellFormed) (b : Bytes) {a : Account} (ha : a.WellFormed) :
    (w.setAccount b a).WellFormed :=
  wellFormed_iff_all.2 ((wellFormed_iff_all.1 h).setAccount b ha)

theorem WellFormed.touch (h : w.WellFormed) (b : Bytes) : (w.touch b).WellFormed :=
  wellFormed_iff_all.2 ((wellFormed_iff_all.1 h).touch Account.wellFormed_empty b)

/-- A change of one account that leaves it well formed, or that is refused. -/
theorem WellFormed.change_address (h : w.WellFormed) {b : Bytes} {f : Account → Except Fault Account}
    (hf : ∀ {a}, f (w.account b) = .ok a → a.WellFormed) : (change (.address b) f w).2.WellFormed := by
  unfold change
  dsimp only
  cases ha : f (w.account b) with
  | error e => exact h
  | ok a => exact h.setAccount b (hf ha)

theorem change_wellFormed {f : Account → Except Fault Account}
    (hf : ∀ {a a' : Account}, a.WellFormed → f a = .ok a' → a'.WellFormed) (place : Place) :
    Preserves WellFormed (change place f) :=
  fun w h => wellFormed_iff_all.2 (change_all Account.wellFormed_empty hf place w (wellFormed_iff_all.1 h))

/-- What is taken from an account that has it, and is then given to another one. -/
theorem WellFormed.move (h : w.WellFormed) {sender : Bytes} {receiver : Place}
    {take give : Account → Except Fault Account}
    (ht : ∀ {a}, take (w.account sender) = .ok a → a.WellFormed)
    (hg : ∀ {a a' : Account}, a.WellFormed → give a = .ok a' → a'.WellFormed) :
    ((do change sender take; change receiver give : Action World Unit) w).2.WellFormed := by
  have hw := h.change_address ht
  rcases hr : change (.address sender) take w with ⟨e | u, w₁⟩
  · rw [Action.bind_error hr]
    rwa [hr] at hw
  · rw [Action.bind_ok hr]
    rw [hr] at hw
    exact change_wellFormed hg receiver w₁ hw

/-! ### Transfers -/

theorem transfer_wellFormed (sender : Bytes) (receiver : Place) (token : Token) (nonce : Nonce)
    (n : Nat) : Preserves WellFormed (transfer sender receiver token nonce n) := by
  intro w h
  rw [transfer_apply]
  split
  · exact h
  · rename_i hz
    have hn : 0 < n := by
      rw [Amount.isZero_whole, decide_eq_true_eq] at hz
      omega
    split
    · exact h.touch sender
    · rename_i hf
      exact (h.touch sender).move
        (fun ha => ((h.touch sender).account sender).take (Bool.eq_false_of_not_eq_true hf) ha)
        fun hw ha => hw.give hn ha

/-! ### Storage -/

theorem WellFormed.storageSet (h : w.WellFormed) (address key value : Bytes) :
    (w.storageSet address key value).WellFormed := by
  have ha := h.account address
  refine h.setAccount address ⟨ha.balance, ha.dct, fun e he => ?_⟩
  dsimp only at he
  split at he
  · exact ha.storage e (List.mem_of_mem_filter he)
  · rename_i hv
    rcases Table.mem_putEntry he with rfl | he
    · exact fun hnil => hv (List.isEmpty_iff.2 hnil)
    · exact ha.storage e he

/-- Nothing that programs do changes well-formedness as long as they send natural amounts. -/
theorem stable_wellFormed : World.Stable Request.SendsNatural WellFormed where
  move c := moveValue_preserves_of fun token nonce n => transfer_wellFormed _ _ token (nonce : Int) n
  transfer hr sender n a ha := by
    obtain ⟨m, rfl⟩ := hr a ha
    exact transfer_wellFormed sender _ _ n m
  store address key value h := h.storageSet address key value

/-! ### Transfers of any amount -/

theorem transfer_of_isZero {n : Amount} (hn : n.isZero) (sender : Bytes) (receiver : Place)
    (token : Token) (nonce : Nonce) (w : World) :
    transfer sender receiver token nonce n w = (.ok (), w) := by
  rw [transfer_apply, if_pos hn]

/-- A transfer of less than nothing finds funds in every well-formed world. -/
theorem WellFormed.transfer_of_neg (h : w.WellFormed) (sender receiver : Bytes) (token : Token)
    (nonce : Nonce) {n : Int} (hn : n < 0) :
    ∃ w', transfer sender (.address receiver) token nonce (.whole n) w = (.ok (), w') := by
  rcases transfer_cases (fun b => (h.account b).isWhole) sender receiver token nonce n with hok | hfail
  · exact hok
  · obtain ⟨-, -, hlt⟩ := hfail
    have hnonneg := (h.account sender).amount_nonneg (token.asset nonce.key)
    omega

/-- A transfer to another account takes from nobody but its sender, except when its amount is below
zero: then it takes from the receiver. -/
theorem WellFormed.takes_nothing_iff (h : w.WellFormed) {sender receiver : Bytes}
    (hne : receiver ≠ sender) (token : Token) (nonce : Nonce) (n : Int) :
    (∀ b ≠ sender, ∀ x, ((w.account b).amount x).int ≤
      (((transfer sender (.address receiver) token nonce (.whole n) w).2.account b).amount x).int) ↔
      0 ≤ n := by
  have hwhole : ∀ b, (w.account b).IsWhole := fun b => (h.account b).isWhole
  -- What another account holds after a transfer that has gone through.
  have hmoved : ∀ {w'}, transfer sender (.address receiver) token nonce (.whole n) w = (.ok (), w') →
      ∀ b ≠ sender, ∀ x, ((w'.account b).amount x).int =
        ((w.account b).amount x).int + if b = receiver ∧ x = token.asset nonce.key then n else 0 := by
    intro w' hok b hb x
    have hgain := ((transfer_shifts hwhole token nonce n hok).gains b).amount_eq x
    rw [hgain, Amount.int_whole, Asset.between, if_neg hb, Asset.only]
    by_cases hr : b = receiver <;> simp [hr]
  constructor
  · intro hkeeps
    by_contra hn
    obtain ⟨w', hok⟩ := h.transfer_of_neg sender receiver token nonce (Int.not_le.1 hn)
    have hless := hkeeps receiver hne (token.asset nonce.key)
    rw [hok, hmoved hok receiver hne, if_pos ⟨rfl, rfl⟩] at hless
    omega
  · intro hn b hb x
    rcases transfer_cases hwhole sender receiver token nonce n with ⟨w', hok⟩ | ⟨hfail, -, -⟩
    · rw [hok, hmoved hok b hb]
      split <;> omega
    · rw [hfail, account_touch]

end World

end TrialLedger
