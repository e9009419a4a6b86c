import TrialLedger.Proofs.World.Total

/-! What becomes of a world when the value of a call is moved: the receiver has gained and the
sender has lost what the call pays, and nothing else has changed. -/

namespace TrialLedger

/-! ### What a call pays -/

def Transfer.asset (t : Transfer) : Asset :=
  match t.token with
  | .native => .native
  | .issued id => .issued id (.number t.nonce)

namespace Call

/-- How much of an asset a call pays. Several transfers of one asset add up. -/
def pays (c : Call) (x : Asset) : Int :=
  Asset.only .native c.native x + (c.transfers.map fun t => Asset.only t.asset t.amount x).sum

end Call

/-- What each account gains when an amount goes from one to another. -/
def Asset.between (sender receiver : Bytes) (d : Asset → Int) (b : Bytes) (x : Asset) : Int :=
  (if b = receiver then d x else 0) - if b = sender then d x else 0

/-! ### Accounts -/

namespace Account

variable {a a' a'' : Account} {d d' : Asset → Int}

/-- The account with none of its amounts. -/
def rest (a : Account) : Account := { a with balance := 0, dct := Table.empty }

theorem Gains.trans (h : Gains d a a') (h' : Gains d' a' a'') : Gains (d + d') a a'' :=
  .of_amount_eq fun x => by
    rw [h'.amount_eq, h.amount_eq, Amount.int_whole, Pi.add_apply, add_assoc]

theorem Gains.refl (ha : a.IsWhole) : Gains 0 a a :=
  .of_amount_eq fun x => by
    rw [Pi.zero_apply, add_zero]
    exact (ha x).eq

theorem withdraw_rest {n : Amount} (h : withdraw n a = .ok a') : a'.rest = a.rest := by
  unfold withdraw at h
  cases hm : a.balance.minus n with
  | error e => rw [hm] at h; cases h
  | ok m => rw [hm] at h; cases h; rfl

theorem deposit_rest {n : Amount} (h : deposit n a = .ok a') : a'.rest = a.rest := by
  unfold deposit at h
  cases hm : a.balance.plus n with
  | error e => rw [hm] at h; cases h
  | ok m => rw [hm] at h; cases h; rfl

theorem debit_rest {id : Bytes} {nonce : Nonce} {n : Amount} (h : debit id nonce n a = .ok a') :
    a'.rest = a.rest := by
  unfold debit at h
  dsimp only at h
  split at h
  · cases h
    rfl
  · cases hm : (a.held id nonce.key).minus n with
    | error e => rw [hm] at h; cases h
    | ok m => rw [hm] at h; cases h; rfl

theorem credit_rest {id : Bytes} {nonce : Nonce} {n : Amount} (h : credit id nonce n a = .ok a') :
    a'.rest = a.rest := by
  unfold credit at h
  cases hm : (a.held id nonce.key).plus n with
  | error e => rw [hm] at h; cases h
  | ok m => rw [hm] at h; cases h; rfl

theorem take_rest {token : Token} {nonce : Nonce} {n : Amount} (h : take token nonce n a = .ok a') :
    a'.rest = a.rest := by
  cases token with
  | native => exact withdraw_rest h
  | issued id => exact debit_rest h

theorem give_rest {token : Token} {nonce : Nonce} {n : Amount} (h : give token nonce n a = .ok a') :
    a'.rest = a.rest := by
  cases token with
  | native => exact deposit_rest h
  | issued id => exact credit_rest h

end Account

/-! ### Worlds -/

namespace World

/-- The accounts of the second world are those of the first with the given changes of what they
hold; their storage, code, owners and nonces are the same. -/
structure Shifts (d : Bytes → Asset → Int) (w w' : World) : Prop where
  gains : ∀ b, (w.account b).Gains (d b) (w'.account b)
  rest_eq : ∀ b, (w'.account b).rest = (w.account b).rest
  strays_eq : w'.strays = w.strays

variable {w w' w'' : World} {d d' : Bytes → Asset → Int} {sender receiver : Bytes}

theorem Shifts.trans (h : Shifts d w w') (h' : Shifts d' w' w'') : Shifts (d + d') w w'' :=
  ⟨fun b => (h.gains b).trans (h'.gains b), fun b => (h'.rest_eq b).trans (h.rest_eq b),
    h'.strays_eq.trans h.strays_eq⟩

theorem Shifts.refl (hw : ∀ b, (w.account b).IsWhole) : Shifts 0 w w :=
  ⟨fun b => .refl (hw b), fun _ => rfl, rfl⟩

theorem Shifts.isWhole (h : Shifts d w w') (b : Bytes) : (w'.account b).IsWhole := (h.gains b).isWhole

theorem account_setAccount (w : World) (b b' : Bytes) (a : Account) :
    (w.setAccount b a).account b' = if b' = b then a else w.account b' := by
  unfold World.account account? setAccount
  rw [Table.get?_put]
  split <;> rfl

theorem account_touch (w : World) (b b' : Bytes) : (w.touch b).account b' = w.account b' := by
  unfold touch
  split
  · rfl
  · rename_i h
    rw [account_setAccount]
    split
    · subst b'
      rw [World.account, h, Option.getD_none]
    · rfl

theorem touch_shifts (hw : ∀ b, (w.account b).IsWhole) (b : Bytes) : Shifts 0 w (w.touch b) := by
  refine ⟨fun b' => ?_, fun b' => by rw [account_touch], ?_⟩
  · rw [account_touch]
    exact .refl (hw b')
  · unfold touch
    split <;> rfl

/-- A change of one account changes that account alone. -/
theorem change_shifts {b : Bytes} {f : Account → Except Fault Account} {e : Asset → Int}
    (hw : ∀ b, (w.account b).IsWhole)
    (hf : ∀ {a a'}, a.IsWhole → f a = .ok a' → a.Gains e a' ∧ a'.rest = a.rest)
    (h : change (.address b) f w = (.ok (), w')) : Shifts (fun b' => if b' = b then e else 0) w w' := by
  unfold change at h
  dsimp only at h
  cases ha : f (w.account b) with
  | error g => rw [ha] at h; cases h
  | ok a =>
    rw [ha] at h
    cases h
    obtain ⟨hg, hr⟩ := hf (hw b) ha
    refine ⟨fun b' => ?_, fun b' => ?_, rfl⟩
    · rw [account_setAccount]
      split
      · subst b'
        exact hg
      · exact .refl (hw b')
    · rw [account_setAccount]
      split
      · subst b'
        exact hr
      · rfl

/-- Taking from one account and giving to another. -/
theorem move_shifts {x : Asset} {n : Int} {take give : Account → Except Fault Account}
    (hw : ∀ b, (w.account b).IsWhole)
    (ht : ∀ {a a'}, a.IsWhole → take a = .ok a' → a.Gains (Asset.only x (-n)) a' ∧ a'.rest = a.rest)
    (hg : ∀ {a a'}, a.IsWhole → give a = .ok a' → a.Gains (Asset.only x n) a' ∧ a'.rest = a.rest)
    (h : (do change sender take; change receiver give : Action World Unit) w = (.ok (), w')) :
    Shifts (Asset.between sender receiver (Asset.only x n)) w w' := by
  obtain ⟨_, w₁, h₁, h₂⟩ := Action.bind_eq_ok.1 h
  have s₁ := change_shifts hw ht h₁
  have s₂ := change_shifts s₁.isWhole hg h₂
  have hd : Asset.between sender receiver (Asset.only x n) =
      (fun b => if b = sender then Asset.only x (-n) else 0) +
        fun b => if b = receiver then Asset.only x n else 0 := by
    funext b y
    simp only [Asset.between, Asset.only, Pi.add_apply, ite_apply, Pi.zero_apply]
    split_ifs <;> omega
  exact hd ▸ s₁.trans s₂

theorem gains_rest {f : Account → Except Fault Account} {e : Asset → Int} {a a' : Account}
    (hg : ∃ a', f a = .ok a' ∧ a.Gains e a') (hr : ∀ {a'}, f a = .ok a' → a'.rest = a.rest)
    (h : f a = .ok a') :
    a.Gains e a' ∧ a'.rest = a.rest := by
  obtain ⟨a'', h', hg⟩ := hg
  obtain rfl : a'' = a' := Except.ok.inj (h'.symm.trans h)
  exact ⟨hg, hr h⟩

theorem between_zero : (Asset.between sender receiver fun _ => 0) = 0 := by
  funext b y
  simp [Asset.between]

theorem between_add (d e : Asset → Int) :
    (Asset.between sender receiver fun x => d x + e x) =
      Asset.between sender receiver d + Asset.between sender receiver e := by
  funext b y
  simp only [Asset.between, Pi.add_apply]
  split_ifs <;> omega

theorem only_zero (x : Asset) : Asset.only x 0 = fun _ => 0 := by
  funext y
  simp [Asset.only]

theorem transfer_shifts (hw : ∀ b, (w.account b).IsWhole) (token : Token) (nonce : Nonce) (n : Int)
    (h : transfer sender (.address receiver) token nonce (.whole n) w = (.ok (), w')) :
    Shifts (Asset.between sender receiver (Asset.only (token.asset nonce.key) n)) w w' := by
  rw [transfer_apply] at h
  split at h
  · obtain rfl : n = 0 := by simpa using ‹(Amount.whole n).isZero = true›
    cases h
    rw [only_zero, between_zero]
    exact .refl hw
  · split at h
    · cases h
    · have hmove := move_shifts (touch_shifts hw sender).isWhole
        (fun ha => gains_rest (Account.take_gains ha token nonce n) Account.take_rest)
        (fun ha => gains_rest (Account.give_gains ha token nonce n) Account.give_rest) h
      simpa only [zero_add] using (touch_shifts hw sender).trans hmove

/-! ### Funds -/

theorem change_of_ok {b : Bytes} {f : Account → Except Fault Account} {a : Account}
    (h : f (w.account b) = .ok a) : change (.address b) f w = (.ok (), w.setAccount b a) := by
  unfold change
  dsimp only
  rw [h]

/-- Accounts with whole amounts can be taken from and given to. -/
theorem move_ok {d d' : Asset → Int} {take give : Account → Except Fault Account}
    (hw : ∀ b, (w.account b).IsWhole)
    (ht : ∀ {a : Account}, a.IsWhole → ∃ a', take a = .ok a' ∧ a.Gains d a')
    (hg : ∀ {a : Account}, a.IsWhole → ∃ a', give a = .ok a' ∧ a.Gains d' a') :
    ∃ w', (do change sender take; change receiver give : Action World Unit) w = (.ok (), w') := by
  obtain ⟨a, ha, hgains⟩ := ht (hw sender)
  have hreceiver : ((w.setAccount sender a).account receiver).IsWhole := by
    rw [account_setAccount]
    split
    · exact hgains.isWhole
    · exact hw receiver
  obtain ⟨a', ha', -⟩ := hg hreceiver
  exact ⟨_, by rw [Action.bind_ok (change_of_ok ha), change_of_ok ha']⟩

/-- A transfer goes through, or the sender has less than it asks for. -/
theorem transfer_cases (hw : ∀ b, (w.account b).IsWhole) (sender receiver : Bytes) (token : Token)
    (nonce : Nonce) (n : Int) :
    (∃ w', transfer sender (.address receiver) token nonce (.whole n) w = (.ok (), w')) ∨
      transfer sender (.address receiver) token nonce (.whole n) w =
          (.error (.failure .insufficientFunds), w.touch sender) ∧
        n ≠ 0 ∧ ((w.account sender).amount (token.asset nonce.key)).int < n := by
  have htouch := (touch_shifts hw sender).isWhole
  rw [transfer_apply, account_touch]
  obtain ⟨m, hm⟩ := hw sender (token.asset nonce.key)
  rw [hm, Amount.lt_whole, Amount.isZero_whole, Amount.int_whole]
  by_cases hz : n = 0
  · exact .inl ⟨w, by rw [decide_eq_true hz, if_pos rfl]⟩
  · rw [decide_eq_false hz, if_neg Bool.false_ne_true]
    by_cases hlt : m < n
    · exact .inr ⟨by rw [decide_eq_true hlt, if_pos rfl], hz, hlt⟩
    · rw [decide_eq_false hlt, if_neg Bool.false_ne_true]
      exact .inl (move_ok htouch (fun ha => Account.take_gains ha token nonce n)
        fun ha => Account.give_gains ha token nonce n)

/-! ### Calls -/

/-- How much of an asset a list of transfers pays. -/
def paid (ts : List Transfer) : Asset → Int := fun x => (ts.map fun t => Asset.only t.asset t.amount x).sum

theorem transferAll_shifts (ts : List Transfer) (hw : ∀ b, (w.account b).IsWhole)
    (h : transferAll sender receiver ts w = (.ok (), w')) :
    Shifts (Asset.between sender receiver (paid ts)) w w' := by
  induction ts generalizing w with
  | nil =>
    cases h
    exact between_zero ▸ .refl hw
  | cons t ts ih =>
    obtain ⟨_, w₁, h₁, h₂⟩ := Action.bind_eq_ok.1 h
    have s₁ := transfer_shifts hw t.token _ t.amount h₁
    have s₂ := ih s₁.isWhole h₂
    have hd : Asset.between sender receiver (paid (t :: ts)) =
        Asset.between sender receiver (Asset.only t.asset t.amount) + Asset.between sender receiver (paid ts) :=
      between_add _ _
    exact hd ▸ s₁.trans s₂

/-- Moving what a call pays takes it from the sender, gives it to the receiver, and does nothing else. -/
theorem moveValue_shifts {c : Call} (hw : w.IsWhole) (h : moveValue c w = (.ok (), w')) :
    Shifts (Asset.between c.sender c.receiver c.pays) w w' := by
  unfold moveValue at h
  split at h
  · obtain ⟨_, w₁, h₁, h₂⟩ := Action.bind_eq_ok.1 h
    have s₁ := transfer_shifts hw.account .native (0 : Int) c.native h₁
    have s₂ := transferAll_shifts c.transfers s₁.isWhole h₂
    have hd : Asset.between c.sender c.receiver c.pays =
        Asset.between c.sender c.receiver (Asset.only .native c.native) +
          Asset.between c.sender c.receiver (paid c.transfers) :=
      between_add _ _
    exact hd ▸ s₁.trans s₂
  · rename_i hv
    cases h
    have hd : c.pays = fun _ => 0 := by
      obtain ⟨hn, ht⟩ : c.native = 0 ∧ c.transfers = [] := by simpa [Call.hasValue] using hv
      funext x
      simp [Call.pays, hn, ht, Asset.only]
    rw [hd, between_zero]
    exact .refl hw.account

end World

end TrialLedger
