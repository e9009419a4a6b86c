import TrialLedger.Proofs.Engine.Stable
import TrialLedger.Proofs.World.Rest

/-! Payments that break off. A transfer fails for want of funds alone, and then it has at most opened
the sender's account. Of the transfers of a call those before the one that fails have been made. -/

namespace TrialLedger.World

variable {w w' : World} {sender : Bytes} {receiver : Place} {e : Failure}

/-! ### What fails -/

theorem change_eq_error {place : Place} {f : Account → Except Fault Account} {stop : Stop}
    (h : change place f w = (.error stop, w')) : ∃ g, stop = .fault g := by
  unfold change at h
  cases place with
  | address b =>
    dsimp only at h
    cases ha : f (w.account b) with
    | error g =>
      rw [ha] at h
      cases h
      exact ⟨g, rfl⟩
    | ok a =>
      rw [ha] at h
      cases h
  | astray name =>
    dsimp only at h
    split at h
    · rename_i g _
      cases h
      exact ⟨g, rfl⟩
    · split at h
      · cases h
      · rename_i g _
        cases h
        exact ⟨g, rfl⟩

/-- Once the funds are there a transfer does not fail. -/
theorem move_ne_failure (sender : Bytes) (receiver : Place) (take give : Account → Except Fault Account) :
    (do change sender take; change receiver give : Action World Unit) w ≠ (.error (.failure e), w') := by
  intro h
  rcases Action.bind_eq_error.1 h with h | ⟨_, _, -, h⟩
  · obtain ⟨g, hg⟩ := change_eq_error h
    cases hg
  · obtain ⟨g, hg⟩ := change_eq_error h
    cases hg

theorem transfer_eq_failure {token : Token} {nonce : Nonce} {n : Amount}
    (h : transfer sender receiver token nonce n w = (.error (.failure e), w')) : w' = w.touch sender := by
  rw [transfer_apply] at h
  split at h
  · cases h
  · split at h
    · exact (congrArg Prod.snd h).symm
    · exact absurd h (move_ne_failure _ _ _ _)

theorem transferAll_eq_failure {ts : List Transfer} {receiver : Bytes}
    (h : transferAll sender receiver ts w = (.error (.failure e), w')) :
    ∃ moved t rest w₁, ts = moved ++ t :: rest ∧ transferAll sender receiver moved w = (.ok (), w₁) ∧
      w' = w₁.touch sender := by
  induction ts generalizing w with
  | nil => cases h
  | cons t ts ih =>
    rcases Action.bind_eq_error.1 h with ht | ⟨_, w₁, ht, hrest⟩
    · exact ⟨[], t, ts, w, rfl, rfl, transfer_eq_failure ht⟩
    · obtain ⟨moved, t', rest, w₂, rfl, hmoved, rfl⟩ := ih hrest
      exact ⟨t :: moved, t', rest, w₂, rfl, Action.bind_eq_ok.2 ⟨(), w₁, ht, hmoved⟩, rfl⟩

/-- A payment that fails has made some of its transfers, and at least one is left. -/
theorem moveValue_eq_failure {c : Call} (h : moveValue c w = (.error (.failure e), w')) :
    ∃ moved rest w₁, c.transfers = moved ++ rest ∧ (moved ≠ [] → rest ≠ []) ∧
      transferAll c.sender c.receiver moved w = (.ok (), w₁) ∧ w' = w₁.touch c.sender := by
  unfold moveValue at h
  split at h
  · rcases Action.bind_eq_error.1 h with hn | ⟨_, w₁, hn, hall⟩
    · have hfail : transfer c.sender c.receiver .native (0 : Int) c.native w = (.error (.failure e), w') := hn
      exact ⟨[], c.transfers, w, rfl, nofun, rfl, transfer_eq_failure hfail⟩
    · obtain ⟨moved, t, rest, w₂, hts, hmoved, rfl⟩ := transferAll_eq_failure hall
      -- A call that lists transfers pays no native coin.
      have hzero : c.native = 0 := c.native_eq_zero (by rw [hts]; simp)
      have hsame : w₁ = w := by
        rw [hzero] at hn
        exact (congrArg Prod.snd hn).symm
      exact ⟨moved, t :: rest, w₂, hts, fun _ => nofun, hsame ▸ hmoved, rfl⟩
  · cases h

/-! ### What was moved -/

/-- Transfers of something come to more than nothing. -/
theorem paid_pos {ts : List Transfer} {t : Transfer} (ht : t ∈ ts) (hn : t.amount ≠ 0) :
    0 < paid ts t.asset := by
  have hnonneg : ∀ i ∈ ts.map fun t' => Asset.only t'.asset t'.amount t.asset, 0 ≤ i := by
    intro i hi
    obtain ⟨t', -, rfl⟩ := List.mem_map.1 hi
    unfold Asset.only
    split <;> omega
  have hle := List.single_le_sum hnonneg _ (List.mem_map_of_mem ht)
  rw [Asset.only, if_pos rfl] at hle
  unfold paid
  omega

/-- Transfers of something to another account change the world. -/
theorem Shifts.ne {sender receiver : Bytes} {ts : List Transfer}
    (h : Shifts (Asset.between sender receiver (paid ts)) w w') (hne : receiver ≠ sender) {t : Transfer}
    (ht : t ∈ ts) (hn : t.amount ≠ 0) : w' ≠ w := by
  rintro rfl
  have hgain := (h.gains receiver).amount_eq t.asset
  have hpos := paid_pos ht hn
  rw [Asset.between, if_pos rfl, if_neg hne, Int.sub_zero] at hgain
  have hint := congrArg Amount.int hgain
  rw [Amount.int_whole] at hint
  omega

/-! ### Accounts that are there -/

theorem isSome_setAccount {b : Bytes} (b' : Bytes) (a : Account) (h : (w.account? b).isSome) :
    ((w.setAccount b' a).account? b).isSome := by
  unfold account? setAccount at *
  rw [Table.get?_put]
  split
  · rfl
  · exact h

section

open TrialLedger.Action (Preserves)

variable {J : World → Prop} (hset : ∀ {w} b a, J w → J (w.setAccount b a))
  (hstrays : ∀ {w : World} t, J w → J { w with strays := t })

include hset hstrays

theorem transfer_of_set (sender : Bytes) (receiver : Place) (token : Token) (nonce : Nonce) (n : Amount) :
    Preserves J (transfer sender receiver token nonce n) :=
  transfer_of_rest (fun _ h => hset _ _ h) (fun _ h => hstrays _ h) sender receiver token nonce n

/-- What survives every new account and every new stray survives all that contracts do. -/
theorem stable_of_set : World.Stable (fun _ => True) J where
  move _ := moveValue_preserves_of fun _ _ _ => transfer_of_set hset hstrays _ _ _ _ _
  transfer _ _ _ _ _ := transfer_of_set hset hstrays _ _ _ _ _
  store _ _ _ h := hset _ _ h

end

/-- An account that is there stays there, whatever contracts do. -/
theorem stable_account (b : Bytes) : World.Stable (fun _ => True) fun w => (w.account? b).isSome :=
  stable_of_set (fun b' a h => isSome_setAccount b' a h) fun _ h => h

theorem touch_of_isSome {b : Bytes} (h : (w.account? b).isSome) : w.touch b = w := by
  obtain ⟨a, ha⟩ := Option.isSome_iff_exists.1 h
  unfold touch
  rw [ha]

/-- A payment that fails while the sender's account is there has made some of its transfers and done
nothing else. -/
theorem moveValue_partly {c : Call} (hc : (w.account? c.sender).isSome)
    (h : moveValue c w = (.error (.failure e), w')) :
    ∃ moved rest, c.transfers = moved ++ rest ∧ (moved ≠ [] → rest ≠ []) ∧
      transferAll c.sender c.receiver moved w = (.ok (), w') := by
  obtain ⟨moved, rest, w₁, hts, hrest, hmoved, rfl⟩ := moveValue_eq_failure h
  have hstays : Action.Preserves (fun w => (w.account? c.sender).isSome)
      (transferAll c.sender c.receiver moved) := by
    refine transferAll_preserves (fun token nonce n => ?_) moved
    exact transfer_of_set (J := fun w => (w.account? c.sender).isSome)
      (fun b' a h => isSome_setAccount b' a h) (fun _ h => h) _ _ _ _ _
  have hkept := hstays w hc
  rw [hmoved] at hkept
  exact ⟨moved, rest, hts, hrest, by rw [hmoved, touch_of_isSome hkept]⟩

end TrialLedger.World
