import TrialLedger.Proofs.World.Digest
import TrialLedger.Proofs.World.Refused
import TrialLedger.Proofs.World.WellFormed

/-! Transfers to the last unit. Where no account holds less than nothing, a transfer is refused exactly when its
sender has less than it asks for. It moves its amount between the two accounts and touches nothing else, or it moves
nothing. A refused transfer still opens the account of a sender that has none. -/

namespace TrialLedger.World

variable {w w' : World} {sender receiver : Bytes} {x : Asset} {n : Nat}

/-- No account holds less than nothing of an asset, and none holds a fraction. -/
def IsNatural (w : World) : Prop := ∀ b x, ∃ m : Nat, (w.account b).amount x = m

theorem WellFormed.isNatural (h : w.WellFormed) : w.IsNatural := fun b => (h.account b).amount

theorem IsNatural.isWhole (hw : w.IsNatural) (b : Bytes) : (w.account b).IsWhole := fun x =>
  let ⟨m, hm⟩ := hw b x
  ⟨m, hm⟩

theorem IsNatural.amount_nonneg (hw : w.IsNatural) (b : Bytes) (x : Asset) : 0 ≤ ((w.account b).amount x).int := by
  obtain ⟨m, hm⟩ := hw b x
  rw [hm, Amount.int_whole]
  exact Int.natCast_nonneg m

/-! ### What is moved -/

/-- The second world is the first one after the amount has gone from one account to another. -/
structure Moved (sender receiver : Bytes) (x : Asset) (n : Nat) (w w' : World) : Prop where
  sender_amount : sender ≠ receiver →
    (w'.account sender).amount x = .whole (((w.account sender).amount x).int - n)
  receiver_amount : sender ≠ receiver →
    (w'.account receiver).amount x = .whole (((w.account receiver).amount x).int + n)
  own_amount : sender = receiver → ∀ b y, (w'.account b).amount y = (w.account b).amount y
  other_amount : ∀ b y, y ≠ x ∨ b ≠ sender ∧ b ≠ receiver → (w'.account b).amount y = (w.account b).amount y
  rest_eq : ∀ b, (w'.account b).rest = (w.account b).rest
  strays_eq : w'.strays = w.strays

/-- What an account has gained of nothing it held before. -/
theorem Shifts.amount_eq_of_zero {d : Bytes → Asset → Int} (h : Shifts d w w') (hw : ∀ b, (w.account b).IsWhole)
    {b : Bytes} {y : Asset} (hd : d b y = 0) : (w'.account b).amount y = (w.account b).amount y := by
  rw [(h.gains b).amount_eq, hd, Int.add_zero]
  exact (hw b y).eq.symm

theorem Shifts.moved (hw : ∀ b, (w.account b).IsWhole)
    (h : Shifts (Asset.between sender receiver (Asset.only x n)) w w') : Moved sender receiver x n w w' where
  sender_amount hne := by
    rw [(h.gains sender).amount_eq, Asset.between, if_neg hne, if_pos rfl, Asset.only, if_pos rfl, Int.zero_sub,
      Int.sub_eq_add_neg]
  receiver_amount hne := by
    rw [(h.gains receiver).amount_eq, Asset.between, if_pos rfl, if_neg (Ne.symm hne), Asset.only, if_pos rfl,
      Int.sub_zero]
  own_amount heq b y := by
    refine h.amount_eq_of_zero hw ?_
    rw [Asset.between, heq, Int.sub_self]
  other_amount b y hother := by
    refine h.amount_eq_of_zero hw ?_
    rcases hother with hy | ⟨hsender, hreceiver⟩
    · rw [Asset.between, Asset.only, if_neg hy]
      split_ifs <;> rfl
    · rw [Asset.between, if_neg hreceiver, if_neg hsender, Int.sub_zero]
  rest_eq := h.rest_eq
  strays_eq := h.strays_eq

/-! ### What is refused -/

/-- The second world is the first one, but for an empty account of a sender that had none. -/
structure Unmoved (sender : Bytes) (w w' : World) : Prop where
  unchanged : (w.account? sender).isSome → w' = w
  opened : w.account? sender = none → w' = w.setAccount sender {}
  account_eq : ∀ b, w'.account b = w.account b

theorem touch_unmoved (sender : Bytes) (w : World) : Unmoved sender w (w.touch sender) where
  unchanged := touch_of_isSome
  opened hnone := by
    unfold touch
    rw [hnone]
  account_eq := account_touch w sender

/-! ### Transfers -/

/-- The outcome of a transfer: it is refused if the sender has less than the amount, and has moved the amount
otherwise. -/
structure Exact (sender receiver : Bytes) (x : Asset) (n : Nat) (w : World) (r : Except Stop Unit × World) :
    Prop where
  refused_iff : r.1 = .error (.failure .insufficientFunds) ↔ ((w.account sender).amount x).int < n
  unmoved : ((w.account sender).amount x).int < n → Unmoved sender w r.2
  moved : (n : Int) ≤ ((w.account sender).amount x).int → r.1 = .ok () ∧ Moved sender receiver x n w r.2

/-- Without funds a transfer is refused, and it has looked at nothing but the sender's account. -/
theorem transfer_of_lt (hw : ∀ b, (w.account b).IsWhole) {token : Token} {nonce : Nonce} (hn : n ≠ 0)
    (hless : ((w.account sender).amount (token.asset nonce.key)).int < n) (receiver : Place) :
    transfer sender receiver token nonce n w = (.error (.failure .insufficientFunds), w.touch sender) := by
  obtain ⟨m, hm⟩ := hw sender (token.asset nonce.key)
  rw [hm, Amount.int_whole] at hless
  rw [transfer_apply, account_touch, hm, Amount.isZero_whole, Amount.lt_whole,
    if_neg (by rw [decide_eq_true_eq]; omega), if_pos (decide_eq_true hless)]

theorem exact_transfer (hw : w.IsNatural) (sender receiver : Bytes) (token : Token) (nonce : Nonce) (n : Nat) :
    Exact sender receiver (token.asset nonce.key) n w (transfer sender (.address receiver) token nonce n w) := by
  by_cases hless : ((w.account sender).amount (token.asset nonce.key)).int < n
  · -- the amount is not zero, for nobody holds less than nothing
    have hn : n ≠ 0 := by
      have hnonneg := hw.amount_nonneg sender (token.asset nonce.key)
      omega
    rw [transfer_of_lt hw.isWhole hn hless]
    exact ⟨iff_of_true rfl hless, fun _ => touch_unmoved sender w, fun hfunds => absurd hless (Int.not_lt.2 hfunds)⟩
  · rcases transfer_cases hw.isWhole sender receiver token nonce n with ⟨w', hok⟩ | ⟨-, -, hrefused⟩
    · have hmoved := (transfer_shifts hw.isWhole token nonce n hok).moved hw.isWhole
      rw [hok]
      exact ⟨iff_of_false nofun hless, fun h => absurd h hless, fun _ => ⟨rfl, hmoved⟩⟩
    · exact absurd hrefused hless

/-- A transfer is exact, or it moves nothing. Among accounts that hold nothing below zero it is refused exactly when
its sender has less than the amount, and then the world is as before, except that a sender without an account now
has an empty one. Otherwise the amount has gone from sender to receiver, and an account that sends to itself has what
it had; no other amount has changed, nor anything that accounts keep besides. -/
theorem transfer_exact (hw : w.IsNatural) (sender receiver : Bytes) (nonce : Nonce) (n : Nat) :
    (∀ token, Exact sender receiver (token.asset nonce.key) n w
      (transfer sender (.address receiver) token nonce n w)) ∧
    Exact sender receiver .native n w (transferNative sender (.address receiver) n w) ∧
    ∀ id, Exact sender receiver (.issued id nonce.key) n w
      (transferDct sender (.address receiver) id nonce n w) :=
  ⟨fun token => exact_transfer hw sender receiver token nonce n, exact_transfer hw sender receiver .native nonce n,
    fun id => exact_transfer hw sender receiver (.issued id) nonce n⟩

/-- One account, which holds three coins. -/
def purse : World := empty.setAccount [2] { balance := 3 }

theorem purse_isNatural : purse.IsNatural := by
  have hempty : empty.WellFormed := ⟨fun e he => absurd he List.not_mem_nil, fun e he => absurd he List.not_mem_nil⟩
  have hcoins : ({ balance := 3 } : Account).WellFormed :=
    ⟨⟨3, rfl⟩, fun e he => absurd he List.not_mem_nil, fun e he => absurd he List.not_mem_nil⟩
  exact (hempty.setAccount [2] hcoins).isNatural

theorem transfer_exact_purse :
    (transferNative [2] (.address [1]) 2 purse).1 = .ok () ∧
      ((transferNative [2] (.address [1]) 2 purse).2.account [2]).amount .native = 1 ∧
      ((transferNative [2] (.address [1]) 2 purse).2.account [1]).amount .native = 2 ∧
      (transferNative [2] (.address [1]) 5 purse).2 = purse := by
  obtain ⟨-, hfunds, -⟩ := transfer_exact purse_isNatural [2] [1] (0 : Int) 2
  obtain ⟨-, hless, -⟩ := transfer_exact purse_isNatural [2] [1] (0 : Int) 5
  obtain ⟨hok, hmoved⟩ := hfunds.moved (by decide)
  refine ⟨hok, hmoved.sender_amount (by decide), hmoved.receiver_amount (by decide), ?_⟩
  exact (hless.unmoved (by decide)).unchanged rfl

/-- A transfer from an account that is not there is refused and leaves an empty account behind, which is written
with the rest of the world. -/
theorem refused_transfer_opens :
    purse.IsNatural ∧ purse.account? [1] = none ∧
      ∃ w', transfer [1] (.address [2]) .native (0 : Int) 5 purse = (.error (.failure .insufficientFunds), w') ∧
        w'.account? [1] = some {} ∧ w'.digestText ≠ purse.digestText := by
  refine ⟨purse_isNatural, rfl, purse.touch [1], rfl, rfl, fun h => ?_⟩
  have hempty : ({} : Account).IsPlain := ⟨⟨0, rfl⟩, fun _ h => (nomatch h), fun e he => absurd he List.not_mem_nil⟩
  have hcoins : ({ balance := 3 } : Account).IsPlain :=
    ⟨⟨3, rfl⟩, fun _ h => (nomatch h), fun e he => absurd he List.not_mem_nil⟩
  have hpurse : purse.IsPlain := ⟨List.forall_mem_singleton.2 hcoins, rfl⟩
  have hopened : (purse.touch [1]).IsPlain :=
    ⟨List.forall_mem_cons.2 ⟨hcoins, List.forall_mem_singleton.2 hempty⟩, rfl⟩
  have hlength := ((digestText_eq_iff_perm hopened hpurse).1 h).length_eq
  cases hlength

end TrialLedger.World
