import TrialLedger.Proofs.Vault.Deposits
import TrialLedger.Proofs.Vault.Requests

/-! The endpoints of a vault. A deposit has been paid before it is written down, and a withdrawal is written down
before it is paid out, so the balance covers what is owed at every point at which an endpoint comes to its end. In
between it may have a surplus. What an endpoint leaves behind that stops does not matter: its frame is undone. -/

namespace TrialLedger

open TrialLedger.Action (Leads Preserves)
open Contracts.Vault (depositKey income income_nonneg share_depositKey)

theorem Codec.encode_natCast (n : Nat) : encode (.int n) = .ok (encodeNat n) := by
  have hnonneg : ¬(n : Int) < 0 := by omega
  rw [encode, encodeInt, if_neg hnonneg, Int.toNat_natCast]

/-! ### What a deposit is told -/

/-- What a depositor is told to have paid in native coin has come in. -/
theorem Call.le_pays_of_told {c : Call} (hc : ∀ t ∈ c.transfers, t.IsParsed) {token : Token} {amount : Nat}
    (h : .ok (token, amount) = CallValue.outcome c .nativeOrSingleFungible) (hname : token.name = Token.nativeName) :
    (amount : Int) ≤ c.pays .native := by
  have hfungible : ∀ t : Transfer, .ok (token, amount) = CallValue.fungible t →
      t.token = token ∧ t.amount = amount := by
    intro t ht
    unfold CallValue.fungible at ht
    split at ht
    · have heq := Except.ok.inj ht
      exact ⟨(congrArg Prod.fst heq).symm, (congrArg Prod.snd heq).symm⟩
    · cases ht
  change .ok (token, amount) = CallValue.payment c.nativePaid c.transfers >>= CallValue.fungible at h
  match hts : c.transfers with
  | [] =>
    rw [hts] at h
    obtain ⟨-, hamount⟩ := hfungible ⟨.native, 0, c.nativePaid⟩ h
    have hpaid : c.native = amount := c.nativePaid_eq.symm.trans hamount
    have hle := c.le_pays_native
    omega
  | [t] =>
    rw [hts] at h
    obtain ⟨htoken, hamount⟩ := hfungible t h
    have hnative : t.token = .native := (hc t (hts ▸ List.mem_singleton_self t)).eq_native (htoken ▸ hname)
    have hasset : t.asset = .native := by rw [Transfer.asset, hnative]
    have hpays : c.pays .native = c.native + t.amount := by
      simp [pays, hts, hasset, Asset.only]
    omega
  | _ :: _ :: _ =>
    rw [hts] at h
    cases h

namespace Frame

variable {host : Host} {launch : Launch} {f : Frame} {J K : World → Prop}

/-! ### Requests -/

/-- The property, of the world of a frame that has queued nothing. -/
abbrev Quiet (J : World → Prop) (s : Running) : Prop := J s.stage.world ∧ s.queued = []

/-- What is owed to depositors is covered with a surplus in the frame of a call, which has queued nothing and is told
what the call pays. -/
abbrev Begun (vault : Bytes) (surplus : Int) (c : Call) (s : Running) : Prop :=
  Quiet (World.Covers vault surplus) s ∧ Informed c s

/-- An action on the world leaves all else in the frame as it is. -/
theorem onWorld_leads {P Q R : World → Prop} {A : Running → Prop} {x : Action World Unit}
    (hA : ∀ s w, A s → A { s with stage := { s.stage with world := w } }) (hx : Leads P (fun _ => Q) R x) :
    Leads (fun s => P s.stage.world ∧ A s) (fun _ s => Q s.stage.world ∧ A s) (fun s => R s.stage.world ∧ A s)
      (onWorld x) := by
  intro s ⟨hs, ha⟩
  refine ⟨fun u t ht => ?_, fun e t ht => ?_⟩
  · obtain ⟨w, hw, rfl⟩ := onWorld_eq.1 ht
    exact ⟨(hx s.stage.world hs).1 u w hw, hA s w ha⟩
  · obtain ⟨w, hw, rfl⟩ := onWorld_eq.1 ht
    exact ⟨(hx s.stage.world hs).2 e w hw, hA s w ha⟩

theorem charge_quiet (n : Amount) : Preserves (Quiet J) (charge n) := fun _ h => h

/-- A frame is told of payments what its call says. -/
theorem Informed.tells {c : Call} {s : Running} (h : Informed c s) (r : Request) :
    c.Tells r (answer host launch f r s).1 := by
  cases r with
  | payment query =>
    intro hq
    obtain ⟨owner, asked, hconsistent⟩ := h
    have htold := (CallValue.answer_apply hconsistent query).1
    rwa [if_neg fun h => hq h.1] at htold
  | _ => trivial

theorem payment_quiet {q : CallValue.Query} (hq : q ≠ .dctAmount) :
    Leads (fun s => Quiet J s ∧ Informed f.call s) (fun a s => Quiet J s ∧ .ok a = CallValue.outcome f.call q)
      (fun _ => True) (answer host launch f (.payment q)) := by
  intro s ⟨hs, hinformed⟩
  refine ⟨fun a t ha => ?_, fun _ _ _ => trivial⟩
  have htold : (answer host launch f (.payment q) s).1 = CallValue.outcome f.call q := hinformed.tells (.payment q) hq
  rw [ha] at htold
  change onPayments (CallValue.answer q) s = (.ok a, t) at ha
  obtain ⟨p, -, rfl⟩ := Action.zoom_eq.1 ha
  exact ⟨hs, htold⟩

theorem storageGet_quiet (key : Bytes) :
    Leads (Quiet J) (fun data => Quiet fun w => J w ∧ data = w.storageGet f.call.receiver key) (fun _ => True)
      (answer host launch f (.storageGet (.bytes key))) := fun _ hs => Leads.of_eq_ok rfl ⟨⟨hs.1, rfl⟩, hs.2⟩

theorem storageSet_quiet {key data : Bytes} {v : Value} (hv : Codec.encode v = .ok data)
    (h : ∀ w, J w → K (w.storageSet f.call.receiver key data)) :
    Leads (Quiet J) (fun _ => Quiet K) (fun _ => True) (answer host launch f (.storageSet (.bytes key) v)) := by
  have hcharge : Leads (Quiet J) (fun _ => Quiet J) (fun _ => True) (charge host.settings.storageWriteCost) :=
    .of_preserves (charge_quiet _) fun _ _ => trivial
  have hstore : Leads (Quiet J) (fun _ => Quiet K) (fun _ => True) (do
      let data ← encode v
      onWorld (Action.modify fun w => w.storageSet f.call.receiver key data)
      note (.stored key)) := by
    unfold encode
    rw [hv]
    exact .of_apply (fun _ => rfl) fun s hs => ⟨h _ hs.1, hs.2⟩
  exact hcharge.bind fun _ => hstore

theorem log_quiet (endpoint topics data : Value) :
    Leads (Quiet J) (fun _ => Quiet J) (fun _ => True) (answer host launch f (.log endpoint topics data)) := by
  refine .of_preserves ?_ fun _ _ => trivial
  exact .bind (charge_quiet _) fun _ => .bind (pureFault_preserves _) fun _ => .bind (encodeItems_preserves _) fun _ =>
    .bind (encode_preserves _) fun _ => .bind (.modify fun _ h => h) fun _ => .modify fun _ h => h

theorem send_quiet {vault : Bytes} {surplus : Int} (hvault : f.call.receiver = vault) (b : Bytes) (n : Nat) :
    Leads (Quiet (World.Covers vault (surplus + n))) (fun _ => Quiet (World.Covers vault surplus)) (fun _ => True)
      (answer host launch f (.send (.bytes b) .native (.int 0) (.int n))) := by
  have htransfer : Leads (Quiet (World.Covers vault (surplus + n))) (fun _ => Quiet (World.Covers vault surplus))
      (fun _ => True) (onWorld (World.transfer f.call.receiver (.address b) .native (Nonce.ofInt 0) n)) := by
    rw [hvault]
    exact (onWorld_leads (fun _ _ h => h) (World.payOut_covers _ n)).mono (fun _ h => h) (fun _ _ h => h)
      fun _ _ => trivial
  have hnone : n = 0 → ∀ s, Quiet (World.Covers vault (surplus + n)) s → Quiet (World.Covers vault surplus) s :=
    fun hn s hs => ⟨hs.1.weaken (by omega), hs.2⟩
  change Leads _ _ _ (Frame.send f (.bytes b) .native (.int 0) (.int n))
  unfold Frame.send
  split
  · rename_i hzero
    have hamount : (Amount.whole n).isZero = true := hzero
    exact .pure (hnone (by simpa using hamount))
  · exact htransfer

/-! ### Endpoints -/

section

variable {vault : Bytes}

theorem deposit_covers (hvault : f.call.receiver = vault) (hsender : f.call.sender.length = 32)
    (hparsed : ∀ t ∈ f.call.transfers, t.IsParsed) :
    Leads (Begun vault (income vault f.call) f.call) (fun _ => Quiet (World.Covers vault 0)) (fun _ => True)
      (run host launch f (Contracts.Vault.deposit f.call.sender)) := by
  unfold Contracts.Vault.deposit Contracts.Vault.getUint Contracts.Vault.get Contracts.Vault.set Contracts.Vault.log
  simp only [Program.bind_assoc, Program.pure_bind]
  rw [run_request_bind]
  refine (payment_quiet (q := .nativeOrSingleFungible) nofun).bind fun p => .given fun htold => ?_
  obtain ⟨token, amount⟩ := p
  dsimp only
  refine run_require_leads (fun _ _ => trivial) fun _ => ?_
  rw [run_request_bind]
  refine (storageGet_quiet _).bind fun held => ?_
  rw [run_request_bind]
  have hencoded : Codec.encode (.int (Codec.decodeUnsigned held + amount)) =
      .ok (Codec.encodeNat (Codec.decodeUnsigned held + amount)) := Codec.encode_natCast _
  refine (storageSet_quiet (K := World.Covers vault 0) hencoded ?_).bind fun _ => ?_
  · rintro w ⟨hw, hheld⟩
    rw [hvault] at hheld ⊢
    refine hw.storageSet_self ?_
    rw [← hheld, share_depositKey hsender, share_depositKey hsender, Codec.decodeUnsigned_encodeNat]
    -- an entry counts under the native name only, so under any other name all that comes in is surplus
    by_cases hname : token.name = Token.nativeName
    · have hle := Call.le_pays_of_told hparsed htold hname
      have hincome : income vault f.call = f.call.pays .native := if_pos hvault
      rw [if_pos hname, if_pos hname]
      omega
    · have hincome := income_nonneg vault f.call
      rw [if_neg hname, if_neg hname]
      omega
  · rw [run_request_bind]
    exact (log_quiet _ _ _).bind fun _ => .pure fun _ h => h

/-- A deposit is written down anew, with so much less. -/
theorem lower_covers (hvault : f.call.receiver = vault) (hsender : f.call.sender.length = 32) {v : Value}
    {data held : Bytes} {amount : Nat} (hv : Codec.encode v = .ok data)
    (hsum : Codec.decodeUnsigned data + amount = Codec.decodeUnsigned held) :
    Leads (Quiet fun w => w.Covers vault 0 ∧
        held = w.storageGet f.call.receiver (depositKey f.call.sender Token.nativeName))
      (fun _ => Quiet (World.Covers vault (0 + amount))) (fun _ => True)
      (answer host launch f (.storageSet (.bytes (depositKey f.call.sender Token.nativeName)) v)) := by
  refine storageSet_quiet hv ?_
  rintro w ⟨hw, hheld⟩
  rw [hvault] at hheld ⊢
  refine hw.storageSet_self ?_
  rw [← hheld, share_depositKey hsender, share_depositKey hsender, if_pos rfl, if_pos rfl]
  omega

/-- What is no longer written down is paid out. -/
theorem payBack_covers (hvault : f.call.receiver = vault) (amount : Nat) :
    Leads (Quiet (World.Covers vault (0 + amount))) (fun _ => Quiet (World.Covers vault 0)) (fun _ => True)
      (run host launch f (do
        Program.request (.send (.bytes f.call.sender) .native (.int 0) (.int amount))
        Program.request (.log (.text "withdraw") (.list [.bytes f.call.sender]) (.int amount))
        return .nothing)) := by
  rw [run_request_bind]
  refine (send_quiet hvault _ _).bind fun _ => ?_
  rw [run_request_bind]
  exact (log_quiet _ _ _).bind fun _ => .pure fun _ h => h

theorem withdraw_covers (hvault : f.call.receiver = vault) (hsender : f.call.sender.length = 32) (amountRaw : Bytes) :
    Leads (Quiet (World.Covers vault 0)) (fun _ => Quiet (World.Covers vault 0)) (fun _ => True)
      (run host launch f (Contracts.Vault.withdraw f.call.sender amountRaw)) := by
  have hpeek : Leads (Quiet (World.Covers vault 0)) (fun _ => Quiet (World.Covers vault 0)) (fun _ => True)
      (answer host launch f (.storageGet (.bytes (depositKey f.call.sender Token.nativeName)))) :=
    (storageGet_quiet _).mono (fun _ h => h) (fun _ _ h => ⟨h.1.1, h.2⟩) fun _ h => h
  unfold Contracts.Vault.withdraw Contracts.Vault.getUint Contracts.Vault.get Contracts.Vault.set Contracts.Vault.log
  simp only [Program.bind_assoc, Program.pure_bind]
  rw [run_request_bind]
  refine hpeek.bind fun _ => run_require_leads (fun _ _ => trivial) fun _ => ?_
  rw [run_request_bind]
  refine (storageGet_quiet _).bind fun held => run_require_leads (fun _ _ => trivial) fun hle => ?_
  have hle' := of_decide_eq_true hle
  split
  · rename_i heq
    rw [run_request_bind]
    refine (lower_covers hvault hsender rfl ?_).bind fun _ => payBack_covers hvault _
    rw [heq]
    exact Nat.zero_add _
  · rw [run_request_bind]
    refine (lower_covers hvault hsender (Codec.encode_natCast _) ?_).bind fun _ => payBack_covers hvault _
    rw [Codec.decodeUnsigned_encodeNat, Nat.sub_add_cancel hle']

/-- What is stored before the failure is not kept. -/
theorem storeThenFail_leads {P : Running → Prop} {Q : Value → Running → Prop} (value : Bytes) :
    Leads P Q (fun _ => True) (run host launch f (Contracts.Vault.storeThenFail value)) := by
  unfold Contracts.Vault.storeThenFail Contracts.Vault.set Contracts.Vault.log
  rw [run_request_bind]
  refine (Leads.trivial _).bind fun _ => ?_
  rw [run_request_bind]
  exact (Leads.trivial _).bind fun _ => .stop fun _ _ => trivial

theorem info_leads {P : Running → Prop} (c : Call) :
    Leads P (fun _ => P) (fun _ => True) (run host launch f (Contracts.Vault.info c)) := by
  unfold Contracts.Vault.info
  rw [run_request_bind]
  refine (Leads.of_preserves (owner_preserves _) fun _ _ => trivial).bind fun _ => ?_
  rw [run_request_bind]
  exact (Leads.of_preserves (balance_preserves _ _ _) fun _ _ => trivial).bind fun _ => .pure fun _ h => h

variable (host launch f vault) in
/-- If the payment of its call has come in as a surplus, an endpoint that goes through leaves what is owed covered. -/
def LeavesCovered (e : Endpoint) : Prop :=
  Leads (Begun vault (income vault f.call) f.call) (fun _ => Quiet (World.Covers vault 0)) (fun _ => True)
    (run host launch f (e.body ⟨f.call, f.asyncResult⟩))

theorem vault_leavesCovered (hvault : f.call.receiver = vault) (hsender : f.call.sender.length = 32)
    (hparsed : ∀ t ∈ f.call.transfers, t.IsParsed) :
    ∀ e ∈ Contracts.Vault.contract.endpoints.entries, LeavesCovered host launch f vault e.2 := by
  have hweaken : ∀ s, Begun vault (income vault f.call) f.call s → Quiet (World.Covers vault 0) s :=
    fun s hs => ⟨hs.1.1.weaken (income_nonneg vault f.call), hs.1.2⟩
  refine Contract.forall_of_ofEndpoints ?_
  simp only [List.forall_mem_cons]
  refine ⟨deposit_covers hvault hsender hparsed, ?withdraw, ?storeThenFail, .pure hweaken,
    (info_leads _).mono hweaken (fun _ _ h => h) fun _ h => h, .pure hweaken, .stop fun _ _ => trivial,
    List.forall_mem_nil _⟩
  case withdraw =>
    show Leads _ _ _ (run host launch f (Contracts.Vault.withOne (Contracts.Vault.withdraw f.call.sender) f.call))
    unfold Contracts.Vault.withOne
    split
    · exact (withdraw_covers hvault hsender _).mono hweaken (fun _ _ h => h) fun _ h => h
    · exact .stop fun _ _ => trivial
  case storeThenFail =>
    show Leads _ _ _ (run host launch f (Contracts.Vault.withOne Contracts.Vault.storeThenFail f.call))
    unfold Contracts.Vault.withOne
    split
    · exact storeThenFail_leads _
    · exact .stop fun _ _ => trivial

end

end Frame

end TrialLedger
