import TrialLedger.Contracts.Vault
import TrialLedger.Proofs.Codec.Number
import TrialLedger.Proofs.Engine.Explained

/-! What a vault owes. It keeps the native coin of each depositor under a key of its own, so a write to its storage
changes what it owes by what the key counts for, and other keys count for nothing. Its balance covers what it owes,
with a surplus while a payment has come in that is not yet written down. Payments of others can only add to it. -/

namespace TrialLedger

namespace Contracts.Vault

/-! ### Keys -/

/-- The key of a deposit in native coin, whose depositor has an address of full length. -/
def IsDepositKey (key : Bytes) : Prop :=
  ∃ depositor : Bytes, depositor.length = 32 ∧ key = depositKey depositor Token.nativeName

theorem depositKey_inj {a b name name' : Bytes} (hab : a.length = b.length)
    (h : depositKey a name = depositKey b name') : a = b ∧ name = name' := by
  unfold depositKey at h
  rw [List.append_assoc, List.append_assoc] at h
  obtain ⟨rfl, hname⟩ := List.append_inj (List.append_cancel_left h) hab
  exact ⟨rfl, (List.cons.inj hname).2⟩

/-- Among the keys of depositors with addresses of full length the token tells which are for native coin. -/
theorem isDepositKey_depositKey {depositor name : Bytes} (h : depositor.length = 32) :
    IsDepositKey (depositKey depositor name) ↔ name = Token.nativeName := by
  constructor
  · rintro ⟨depositor', h', heq⟩
    exact (depositKey_inj (h.trans h'.symm) heq).2
  · rintro rfl
    exact ⟨depositor, h, rfl⟩

instance : DecidablePred IsDepositKey := fun key =>
  let depositor := (key.drop keyPrefix.length).take 32
  decidable_of_iff (depositor.length = 32 ∧ key = depositKey depositor Token.nativeName) <| by
    constructor
    · rintro ⟨h, hkey⟩
      exact ⟨depositor, h, hkey⟩
    · rintro ⟨b, hb, hkey⟩
      have hdepositor : depositor = b := by
        show (key.drop keyPrefix.length).take 32 = b
        rw [hkey, depositKey, List.append_assoc, List.drop_left, ← hb, List.take_left]
      rw [hdepositor]
      exact ⟨hb, hkey⟩

/-! ### What is owed -/

/-- What an entry counts for. -/
def share (key data : Bytes) : Nat := if IsDepositKey key then Codec.decodeUnsigned data else 0

/-- The native coin that a vault with such a storage owes to its depositors. -/
def owed (storage : Table Bytes Bytes) : Nat :=
  ((storage.entries.filter fun e => IsDepositKey e.1).map fun e => Codec.decodeUnsigned e.2).sum

theorem owed_eq_sum (t : Table Bytes Bytes) : owed t = (t.entries.map fun e => share e.1 e.2).sum := by
  unfold owed
  induction t.entries with
  | nil => rfl
  | cons e r ih =>
    rw [List.map_cons, List.sum_cons, ← ih, share]
    by_cases h : IsDepositKey e.1
    · rw [List.filter_cons_of_pos (by simpa using h), List.map_cons, List.sum_cons, if_pos h]
    · rw [List.filter_cons_of_neg (by simpa using h), if_neg h, Nat.zero_add]

theorem share_nil (key : Bytes) : share key [] = 0 := by
  unfold share
  split <;> rfl

theorem share_depositKey {depositor : Bytes} (h : depositor.length = 32) (name data : Bytes) :
    share (depositKey depositor name) data = if name = Token.nativeName then Codec.decodeUnsigned data else 0 := by
  simp only [share, isDepositKey_depositKey h]

/-- Tables in which the same is found owe the same. -/
theorem owed_congr {t t' : Table Bytes Bytes} (h : ∀ key, t.get? key = t'.get? key) : owed t = owed t' := by
  rw [owed_eq_sum, owed_eq_sum]
  exact ((Table.get?_eq_iff_perm.1 h).map _).sum_eq

/-- One key on its own, and all others. -/
theorem owed_split (t : Table Bytes Bytes) (key : Bytes) :
    owed t = share key (t.getD key []) + owed (t.erase key) := by
  rw [owed_eq_sum, owed_eq_sum, Table.getD]
  cases h : t.get? key with
  | some data =>
    have hperm := Table.perm_cons_filter_ne t.nodup h
    rw [(hperm.map fun e : Bytes × Bytes => share e.1 e.2).sum_eq]
    rfl
  | none =>
    have hall : (t.erase key).entries = t.entries := by
      refine List.filter_eq_self.2 fun e he => ?_
      have hne : e.1 ≠ key := by
        rintro rfl
        rw [Table.mem_entries_iff.1 he] at h
        cases h
      simpa using hne
    rw [Option.getD_none, share_nil, Nat.zero_add, hall]

/-- A write changes what is owed by what its key counts for. -/
theorem owed_write (t : Table Bytes Bytes) (key data : Bytes) :
    owed (if data.isEmpty then t.erase key else t.put key data) + share key (t.getD key []) =
      owed t + share key data := by
  have hwrite : owed (if data.isEmpty then t.erase key else t.put key data) =
      share key data + owed (t.erase key) := by
    split
    · rename_i hempty
      rw [List.isEmpty_iff.1 hempty, share_nil, Nat.zero_add]
    · have herase : owed ((t.put key data).erase key) = owed (t.erase key) := by
        refine owed_congr fun k => ?_
        rw [Table.get?_erase, Table.get?_erase, Table.get?_put]
        split <;> rfl
      have hget : (t.put key data).getD key [] = data := by
        rw [Table.getD, Table.get?_put, if_pos rfl, Option.getD_some]
      rw [owed_split _ key, hget, herase]
  have hsplit := owed_split t key
  omega

/-- The vault at an address holds at least as much native coin as it owes. -/
def Solvent (vault : Bytes) (w : World) : Prop :=
  ∃ n : Int, w.balance vault = .whole n ∧ (owed (w.account vault).storage : Int) ≤ n

/-- What a vault gains when so much native coin goes to a receiver. -/
def gain (vault receiver : Bytes) (n : Int) : Int := if receiver = vault then n else 0

theorem gain_add (vault receiver : Bytes) (m n : Int) :
    gain vault receiver (m + n) = gain vault receiver m + gain vault receiver n := by
  unfold gain
  split <;> rfl

theorem gain_zero (vault receiver : Bytes) : gain vault receiver 0 = 0 := by
  unfold gain
  split <;> rfl

theorem gain_nonneg (vault receiver : Bytes) {n : Int} (hn : 0 ≤ n) : 0 ≤ gain vault receiver n := by
  unfold gain
  split <;> omega

/-- What a vault gains by what a call pays. -/
def income (vault : Bytes) (c : Call) : Int := gain vault c.receiver (c.pays .native)

end Contracts.Vault

open Contracts.Vault (owed share gain income)

/-! ### Payments -/

theorem Asset.only_nonneg (x : Asset) (n : Nat) (y : Asset) : 0 ≤ Asset.only x n y := by
  unfold only
  split <;> omega

namespace Call

theorem pays_eq_zero {c : Call} (h : c.hasValue = false) : c.pays = fun _ => 0 := by
  obtain ⟨hn, ht⟩ : c.native = 0 ∧ c.transfers = [] := by simpa [hasValue] using h
  funext x
  simp [pays, hn, ht, Asset.only]

theorem le_pays_native (c : Call) : (c.native : Int) ≤ c.pays .native := by
  have hnonneg : ∀ n ∈ c.transfers.map fun t => Asset.only t.asset t.amount .native, (0 : Int) ≤ n := by
    intro n hn
    obtain ⟨t, -, rfl⟩ := List.mem_map.1 hn
    exact Asset.only_nonneg _ _ _
  have hsum := List.sum_nonneg hnonneg
  have hself : Asset.only .native c.native .native = (c.native : Int) := if_pos rfl
  unfold pays
  rw [hself]
  omega

end Call

theorem Contracts.Vault.income_nonneg (vault : Bytes) (c : Call) : 0 ≤ income vault c := by
  have hle := c.le_pays_native
  exact gain_nonneg vault c.receiver (by omega)

/-- What an account is given adds to its native coin if it is native coin. -/
theorem Account.give_balance {token : Token} {nonce : Nonce} {n m : Int} {a a' : Account}
    (h : give token nonce (.whole n) a = .ok a') (hm : a.balance = .whole m) :
    a'.balance = .whole (m + Asset.only (token.asset nonce.key) n .native) := by
  cases token with
  | native =>
    change deposit (.whole n) a = .ok a' at h
    rw [deposit, hm, Amount.plus_whole] at h
    obtain rfl := Except.ok.inj h
    rfl
  | issued id =>
    change credit id nonce (.whole n) a = .ok a' at h
    have hbalance : a'.balance = a.balance := by
      unfold credit at h
      cases hplus : (a.held id nonce.key).plus (.whole n) with
      | error e => rw [hplus] at h; cases h
      | ok k => rw [hplus] at h; cases h; rfl
    rw [hbalance, hm]
    simp [Asset.only, Token.asset]

/-! ### Worlds -/

/-- There is a vault at the address. It holds as much native coin as it owes, and so much more. All contracts have
addresses of full length. -/
structure World.Covers (vault : Bytes) (surplus : Int) (w : World) : Prop where
  code_eq : (w.account vault).code = some "vault"
  length_eq : ∀ b, (w.account b).code.isSome → b.length = 32
  covered : ∃ n : Int, w.balance vault = .whole n ∧ (owed (w.account vault).storage : Int) + surplus ≤ n

namespace World

open TrialLedger.Action (Leads Preserves)

variable {w w' : World} {vault b : Bytes} {s s' : Int}

namespace Covers

theorem weaken (h : w.Covers vault s) (hs : s' ≤ s) : w.Covers vault s' := by
  obtain ⟨n, hn, hle⟩ := h.covered
  exact ⟨h.code_eq, h.length_eq, n, hn, by omega⟩

theorem of_gain {n : Int} (h : w.Covers vault (s + gain vault b n)) (hn : 0 ≤ n) : w.Covers vault s :=
  h.weaken (le_add_of_nonneg_right (Contracts.Vault.gain_nonneg vault b hn))

theorem congr (h : w.Covers vault s) (heq : ∀ b, w'.account b = w.account b) : w'.Covers vault s := by
  obtain ⟨n, hn, hle⟩ := h.covered
  refine ⟨?_, fun b hb => ?_, n, ?_, ?_⟩
  · rw [heq]
    exact h.code_eq
  · rw [heq] at hb
    exact h.length_eq b hb
  · rw [balance, heq]
    exact hn
  · rw [heq]
    exact hle

/-- An account gets new contents. It is all the same to the vault what other accounts have. -/
theorem setAccount (h : w.Covers vault s) {a : Account} (hcode : a.code = (w.account b).code)
    (hvault : b = vault → ∃ n : Int, a.balance = .whole n ∧ (owed a.storage : Int) + s' ≤ n)
    (hother : b ≠ vault → s' ≤ s) : (w.setAccount b a).Covers vault s' := by
  refine ⟨?_, fun b' hb' => ?_, ?_⟩
  · rw [account_setAccount]
    split
    · rename_i heq
      rw [hcode, ← heq]
      exact h.code_eq
    · exact h.code_eq
  · rw [account_setAccount] at hb'
    split at hb'
    · rename_i heq
      rw [heq]
      rw [hcode] at hb'
      exact h.length_eq b hb'
    · exact h.length_eq b' hb'
  · rw [balance, account_setAccount]
    by_cases hb : b = vault
    · rw [if_pos hb.symm]
      exact hvault hb
    · rw [if_neg (Ne.symm hb)]
      exact (h.weaken (hother hb)).covered

/-- What an account gains in native coin adds to the surplus if it is the vault. -/
theorem setAmounts (h : w.Covers vault s) {a : Account} {n : Int} (hrest : a.rest = (w.account b).rest)
    (hn : b = vault → ∀ m, (w.account b).balance = .whole m → a.balance = .whole (m + n)) :
    (w.setAccount b a).Covers vault (s + gain vault b n) := by
  refine h.setAccount (Account.code_of_rest hrest) (fun hb => ?_) fun hb => ?_
  · obtain ⟨m, hm, hle⟩ := h.covered
    refine ⟨m + n, hn hb m (hb ▸ hm), ?_⟩
    rw [Account.storage_of_rest hrest, gain, if_pos hb, hb]
    omega
  · rw [gain, if_neg hb, Int.add_zero]

/-- A write to the storage of another account. -/
theorem storageSet (h : w.Covers vault s) (hb : b ≠ vault) (key data : Bytes) :
    (w.storageSet b key data).Covers vault s :=
  h.setAccount rfl (fun heq => absurd heq hb) fun _ => le_refl s

/-- A write to the storage of the vault. -/
theorem storageSet_self (h : w.Covers vault s) {key data : Bytes}
    (hs : s' + share key data ≤ s + share key (w.storageGet vault key)) :
    (w.storageSet vault key data).Covers vault s' := by
  refine h.setAccount rfl (fun _ => ?_) fun hne => absurd rfl hne
  obtain ⟨n, hn, hle⟩ := h.covered
  have hwrite := Contracts.Vault.owed_write (w.account vault).storage key data
  refine ⟨n, hn, ?_⟩
  unfold World.storageGet at hs
  dsimp only
  omega

theorem touch (h : w.Covers vault s) (b : Bytes) : (w.touch b).Covers vault s :=
  h.congr fun b' => account_touch w b b'

end Covers

/-! ### Transfers -/

theorem change_leads {P Q : World → Prop} {f : Account → Except Fault Account}
    (h : ∀ w a, P w → f (w.account b) = .ok a → Q (w.setAccount b a)) :
    Leads P (fun _ => Q) P (change (.address b) f) := by
  intro w hw
  cases ha : f (w.account b) with
  | error e =>
    have hx : change (.address b) f w = (.error (.fault e), w) := by simp only [change, ha]
    exact Leads.of_eq_error hx hw
  | ok a =>
    have hx : change (.address b) f w = (.ok (), w.setAccount b a) := by simp only [change, ha]
    exact Leads.of_eq_ok hx (h w a hw ha)

/-- Nothing that is sent changes nothing. Anything else is taken and given once the sender's account is open, if
that holds enough. -/
theorem transfer_leads {P Q R : World → Prop} {sender : Bytes} {token : Token} {nonce : Nonce} {n : Amount}
    (hnone : n.isZero = true → ∀ w, P w → Q w) (htouch : ∀ w, P w → P (w.touch sender)) (hshort : ∀ w, P w → R w)
    (hmove : Leads P (fun _ => Q) R (do
      change sender (Account.take token nonce n)
      change (.address b) (Account.give token nonce n))) :
    Leads P (fun _ => Q) R (transfer sender (.address b) token nonce n) := by
  intro w hw
  rw [transfer_apply]
  split
  · exact Leads.pure (hnone (by assumption)) w hw
  · split
    · exact Leads.stop hshort _ (htouch w hw)
    · exact hmove _ (htouch w hw)

theorem give_covers (token : Token) (nonce : Nonce) (n : Int) :
    Leads (Covers vault s)
      (fun _ => Covers vault (s + gain vault b (Asset.only (token.asset nonce.key) n .native)))
      (Covers vault s) (change (.address b) (Account.give token nonce (.whole n))) :=
  change_leads fun _ _ hw ha => hw.setAmounts (Account.give_rest ha) fun _ _ => Account.give_balance ha

/-- What another account pays to a vault adds to its surplus. -/
theorem transfer_covers {sender : Bytes} (hsender : sender ≠ vault) (token : Token) (nonce : Nonce) (n : Int) :
    Leads (Covers vault s)
      (fun _ => Covers vault (s + gain vault b (Asset.only (token.asset nonce.key) n .native)))
      (Covers vault s) (transfer sender (.address b) token nonce (.whole n)) := by
  have htake : Leads (Covers vault s) (fun _ => Covers vault s) (Covers vault s)
      (change (.address sender) (Account.take token nonce (.whole n))) := by
    refine change_leads fun w a hw ha => ?_
    have hnone := hw.setAmounts (n := 0) (Account.take_rest ha) fun heq => absurd heq hsender
    rwa [Contracts.Vault.gain_zero, Int.add_zero] at hnone
  refine transfer_leads (fun hzero w hw => ?_) (fun _ hw => hw.touch sender) (fun _ hw => hw)
    (htake.bind fun _ => give_covers token nonce n)
  obtain rfl : n = 0 := by simpa using hzero
  rw [only_zero, Contracts.Vault.gain_zero, Int.add_zero]
  exact hw

/-- What a vault pays out takes from its surplus. -/
theorem payOut_covers (nonce : Nonce) (n : Nat) :
    Leads (Covers vault (s + n)) (fun _ => Covers vault s) (fun _ => True)
      (transfer vault (.address b) .native nonce n) := by
  have htake : Leads (Covers vault (s + n)) (fun _ => Covers vault s) (fun _ => True)
      (change (.address vault) (Account.take .native nonce n)) := by
    refine (change_leads fun w a hw ha => ?_).mono (fun _ h => h) (fun _ _ h => h) fun _ _ => trivial
    have hpaid := hw.setAmounts (n := -n) (Account.take_rest ha) fun _ m hm => by
      change Account.withdraw n (w.account vault) = .ok a at ha
      rw [Account.withdraw, hm, Amount.minus_whole] at ha
      obtain rfl := Except.ok.inj ha
      rfl
    rwa [gain, if_pos rfl, Int.add_neg_cancel_right] at hpaid
  have hgive : Leads (Covers vault s) (fun _ => Covers vault s) (fun _ => True)
      (change (.address b) (Account.give .native nonce n)) := by
    exact (give_covers .native nonce n).mono (fun _ h => h) (fun _ _ h => h.of_gain (Asset.only_nonneg _ _ _))
      fun _ _ => trivial
  exact transfer_leads (fun _ _ hw => hw.weaken (by omega)) (fun _ hw => hw.touch vault) (fun _ _ => trivial)
    (htake.bind fun _ => hgive)

theorem transferAll_covers {sender : Bytes} (hsender : sender ≠ vault) (ts : List Transfer) :
    Leads (Covers vault s) (fun _ => Covers vault (s + gain vault b (paid ts .native))) (Covers vault s)
      (transferAll sender b ts) := by
  induction ts generalizing s with
  | nil =>
    refine .pure fun w hw => ?_
    have hnone : paid [] .native = 0 := rfl
    rwa [hnone, Contracts.Vault.gain_zero, Int.add_zero]
  | cons t ts ih =>
    have hpaid : paid (t :: ts) .native = Asset.only t.asset t.amount .native + paid ts .native := rfl
    rw [hpaid, Contracts.Vault.gain_add, ← Int.add_assoc]
    exact (transfer_covers hsender t.token (t.nonce : Int) t.amount).bind fun _ =>
      ih.mono (fun _ h => h) (fun _ _ h => h) fun _ h => h.of_gain (Asset.only_nonneg _ _ _)

/-- What a call of another account pays to a vault adds to its surplus, and it takes nothing from it when it fails. -/
theorem moveValue_covers {c : Call} (hc : c.sender ≠ vault ∨ c.hasValue = false) :
    Leads (Covers vault s) (fun _ => Covers vault (s + income vault c)) (Covers vault s) (moveValue c) := by
  by_cases hvalue : c.hasValue = true
  · have hsender := hc.resolve_right fun hnone => by
      rw [hnone] at hvalue
      cases hvalue
    have hincome : income vault c = gain vault c.receiver (Asset.only .native c.native .native) +
        gain vault c.receiver (paid c.transfers .native) := Contracts.Vault.gain_add ..
    rw [moveValue, if_pos hvalue, hincome, ← Int.add_assoc]
    exact (transfer_covers hsender .native (0 : Int) c.native).bind fun _ =>
      (transferAll_covers hsender c.transfers).mono (fun _ h => h) (fun _ _ h => h) fun _ h =>
        h.of_gain (Asset.only_nonneg _ _ _)
  · have hnone := Bool.eq_false_of_not_eq_true hvalue
    have hincome : income vault c = 0 := by
      rw [income, Call.pays_eq_zero hnone, Contracts.Vault.gain_zero]
    rw [moveValue, if_neg hvalue, hincome, Int.add_zero]
    exact .pure fun _ h => h

end World

end TrialLedger
