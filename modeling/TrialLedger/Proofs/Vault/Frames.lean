import TrialLedger.Proofs.Callbacks
import TrialLedger.Proofs.Vault.Endpoints

/-! Frames beside a vault. Only the vault's own endpoints write to its storage and pay out its coin, and these leave
what is owed covered. All other frames can only add to its balance, whatever they nest and however they end: the
standard contracts call each other in their own name, and a callback pays nothing. -/

namespace TrialLedger

open TrialLedger.Action (Leads Preserves)
open Contracts.Vault (income income_nonneg)

variable {vault : Bytes}

/-! ### Calls that do no harm -/

/-- A call that may reach a vault: its tokens have been read, the vault does not pay for it, and the address of a
depositor has full length. -/
structure Call.IsHarmless (vault : Bytes) (c : Call) : Prop where
  parsed : ∀ t ∈ c.transfers, t.IsParsed
  unpaid : c.sender ≠ vault ∨ c.hasValue = false
  length_sender : c.receiver = vault → c.sender.length = 32

/-- A deferred call that does no harm to a vault, and is not one of its own. -/
structure AsyncCall.IsHarmless (vault : Bytes) (a : AsyncCall) : Prop where
  call : a.call.IsHarmless vault
  sender_ne : a.call.sender ≠ vault

theorem Call.IsPlain.isHarmless {c : Call} (h : c.IsPlain) (hne : c.sender ≠ vault) : c.IsHarmless vault :=
  ⟨h.transfers, .inl hne, fun _ => h.length_sender⟩

/-- What a contract other than the vault asks for in its own name. -/
theorem CallRequest.Describes.isHarmless {r : CallRequest} {caller c : Call} {kind : CallKind}
    (h : r.Describes caller kind c) (hr : r.IsParsed) (hne : caller.receiver ≠ vault)
    (hlength : caller.receiver.length = 32) : c.IsHarmless vault := by
  obtain ⟨vs, hvs, hts⟩ := h.transfers
  rw [← h.sender] at hne hlength
  exact ⟨hr vs c.transfers hvs hts, .inl hne, fun _ => hlength⟩

/-- The callback of a deferred call pays nothing and goes to the contract that issued the call. -/
theorem AsyncCall.Informs.isHarmless {a : AsyncCall} {result : CallResult} {left : Amount} {c : Call}
    (h : a.Informs result left c) (ha : a.IsHarmless vault) : c.IsHarmless vault := by
  have hnone : c.transfers = [] := by
    have hvalue := h.hasValue_eq
    unfold Call.hasValue at hvalue
    simp_all
  refine ⟨?_, .inr h.hasValue_eq, fun hreceiver => ?_⟩
  · rw [hnone]
    exact List.forall_mem_nil _
  · exact absurd (h.receiver_eq.symm.trans hreceiver) ha.sender_ne

/-- The frame of a call that does no harm leaves what is owed covered, and hands over no call that does harm. What
its call pays has come in before as a surplus if it is not moved in the frame. -/
def Launch.Guards (vault : Bytes) (launch : Launch) : Prop :=
  ∀ f movesValue stage, f.call.IsHarmless vault →
    stage.world.Covers vault (if movesValue then 0 else income vault f.call) →
      let exit := launch f movesValue stage
      exit.stage.world.Covers vault 0 ∧ ∀ a ∈ exit.queued, a.IsHarmless vault

namespace Frame

variable {host : Host} {launch : Launch} {f : Frame} {surplus : Int} {r : CallRequest} {c : Call}

/-! ### Nested calls -/

/-- What is owed is covered with a surplus, and no call was queued that does harm. -/
abbrev Guarded (vault : Bytes) (surplus : Int) (s : Running) : Prop :=
  s.stage.world.Covers vault surplus ∧ ∀ a ∈ s.queued, a.IsHarmless vault

theorem metered_guarded : Metered (Guarded vault surplus) :=
  ⟨fun _ _ h => h, fun _ _ h => h, fun _ _ h => h, fun _ _ h => h⟩

/-- What has come in for a call that does not run stays where it is. -/
theorem Guarded.kept {s : Running} (h : Guarded vault (income vault c) s) : Guarded vault 0 s :=
  ⟨h.1.weaken (income_nonneg vault c), h.2⟩

theorem runChild_guarded (hl : launch.Guards vault) (hc : c.IsHarmless vault) (b : Amount) (movesValue : Bool) :
    Leads (Guarded vault (if movesValue then 0 else income vault c)) (fun _ => Guarded vault 0) (Guarded vault 0)
      (runChild launch f c b movesValue) := by
  intro s hs
  obtain ⟨hworld, hqueued⟩ := hl ⟨c, b, f.asyncDepth, none⟩ movesValue s.stage hc hs.1
  have hend : ∀ o t, runChild launch f c b movesValue s = (o, t) → Guarded vault 0 t := by
    intro o t ht
    rcases runChild_cases ht with ⟨_, -, -, rfl⟩ | ⟨left, -, ⟨done, ho, -, rfl⟩ | ⟨_, -, -, rfl⟩⟩
    · exact ⟨hworld, hs.2⟩
    · rw [Exit.queued, ho] at hqueued
      exact ⟨hworld, List.forall_mem_append.2 ⟨hs.2, hqueued⟩⟩
    · exact ⟨hworld, hs.2⟩
  exact ⟨fun _ => hend _, fun _ => hend _⟩

/-- A payment made ahead of its call is a surplus until the call has run. -/
theorem moveAhead_guarded (hc : c.IsHarmless vault) (b : Amount) :
    Leads (Guarded vault 0) (fun _ => Guarded vault (income vault c)) (Guarded vault 0) (moveAhead c b) := by
  have hmove : Leads (Guarded vault 0) (fun _ => Guarded vault (0 + income vault c)) (Guarded vault 0)
      (onWorld (World.moveValue c)) :=
    onWorld_leads (fun _ _ h => h) (World.moveValue_covers hc.unpaid)
  rw [Int.zero_add] at hmove
  refine hmove.attempt_cases.bind fun o => ?_
  split
  · exact .pure fun _ h => h.1 _ rfl
  · have hrefund : Leads (Guarded vault 0) (fun _ => Guarded vault 0) (Guarded vault 0) (refund (Meter.full b)) :=
      .of_preserves (metered_guarded.refund _) fun _ h => h
    exact (hrefund.mono (fun _ h => h.2 _ rfl) (fun _ _ h => h) fun _ h => h).bind fun _ => .stop fun _ h => h
  · exact .stop fun _ h => h.2 _ rfl

section

variable (hne : f.call.receiver ≠ vault) (hlength : f.call.receiver.length = 32) (hr : r.IsParsed)

include hne hlength hr

theorem makeCall_guarded (hl : launch.Guards vault) (mode : CallMode) :
    Preserves (Guarded vault 0) (makeCall launch f r mode) := by
  have hharmless : ∀ {kind c}, r.Describes f.call kind c → c.IsHarmless vault :=
    fun hc => hc.isHarmless hr hne hlength
  cases mode with
  | propagate =>
    refine prepare_bind (metered_guarded.prepare _ .sync) fun c b hc => ?_
    exact (runChild_guarded hl (hharmless hc) b true).preserves
  | report =>
    refine prepare_bind (metered_guarded.prepare _ .sync) fun c b hc => ?_
    exact (report_leads (runChild_guarded hl (hharmless hc) b true) _).preserves
  | keepValue =>
    -- the payment stays where it has gone, whether its call is run, fails or is left out
    refine prepare_bind (metered_guarded.prepare _ .transferExecute) fun c b hc => ?_
    refine ((moveAhead_guarded (hharmless hc) b).bind fun _ => .ite ?_ ?_).preserves
    · refine Leads.bind (Q := fun _ => Guarded vault (income vault c)) ?_ fun _ => .pure fun _ h => h.kept
      exact .of_preserves (metered_guarded.refund _) fun _ h => h.kept
    · exact report_leads (runChild_guarded hl (hharmless hc) b false) _

theorem callAsync_guarded (callback arguments : Value) :
    Preserves (Guarded vault 0) (callAsync host f r callback arguments) := by
  unfold callAsync
  by_cases hd : host.settings.maxAsyncDepth ≤ f.asyncDepth
  · rw [if_pos hd]
    exact fun _ h => h
  rw [if_neg hd]
  refine prepare_bind (metered_guarded.prepare _ .async) fun c b hc => ?_
  refine .bind (encodeItems_preserves _) fun args => fun s hs => ?_
  have hsender : c.sender ≠ vault := hc.sender ▸ hne
  have hqueued : ∀ a ∈ s.queued ++ [⟨c, b, f.asyncDepth + 1, callback, args⟩], a.IsHarmless vault :=
    List.forall_mem_append.2 ⟨hs.2, List.forall_mem_singleton.2 ⟨hc.isHarmless hr hne hlength, hsender⟩⟩
  exact pureFault_preserves (I := Guarded vault 0) r.checkReceiver
    ((s.queuing [⟨c, b, f.asyncDepth + 1, callback, args⟩]).noted (.queued _)) ⟨hs.1, hqueued⟩

end

/-! ### Endpoints -/

/-- A contract other than the vault writes to its own storage and sends from its own account. -/
theorem keeps_guarded (hl : launch.Guards vault) (hne : f.call.receiver ≠ vault)
    (hlength : f.call.receiver.length = 32) : Keeps (Guarded vault 0) Request.IsPlain host launch f where
  payments _ _ h := h
  started _ h := h
  charge _ _ h := h
  store key data _ h := ⟨h.1.storageSet hne key data, h.2⟩
  log _ _ h := h
  send := by
    rintro _ token _ _ ⟨b, n, rfl, rfl⟩ nonce _ ⟨⟩
    refine Leads.preserves (onWorld_leads (fun _ _ h => h) ?_)
    exact (World.transfer_covers hne token nonce n).mono (fun _ h => h)
      (fun _ _ h => h.of_gain (Asset.only_nonneg _ _ _)) fun _ h => h
  call mode _ hr := makeCall_guarded hne hlength hr hl mode
  callAsync hr := callAsync_guarded hne hlength hr _ _

/-- Whatever a plain program of such a contract asks for, it is told what its call pays. -/
theorem run_guarded (hl : launch.Guards vault) (hne : f.call.receiver ≠ vault)
    (hlength : f.call.receiver.length = 32) {p : Program Value} (hp : p.IsPlain f.call) :
    Preserves (fun s => Guarded vault 0 s ∧ Informed f.call s) (run host launch f p) :=
  run_preserves_given
    (fun r hr => ((keeps_guarded hl hne hlength).answer r hr).and (informed_withstands.answer r))
    (fun r _ h => h.2.tells r) p hp

theorem runEndpoint_leads {P Q : Running → Prop} {e : Endpoint}
    (hstarted : ∀ s, P s → P (s.noted .started))
    (hrun : Leads P (fun _ => Q) (fun _ => True) (run host launch f (e.body ⟨f.call, f.asyncResult⟩))) :
    Leads P (fun _ => Q) (fun _ => True) (runEndpoint host launch f e) := by
  have hstart : Leads P (fun _ => P) (fun _ => True) (note .started) :=
    .of_preserves (.modify hstarted) fun _ _ => trivial
  unfold runEndpoint
  refine .ite (.stop fun _ _ => trivial) ?_
  exact hstart.bind fun _ => hrun.bind fun _ => .of_preserves (.ofExcept _) fun _ _ => trivial

/-- A frame that has queued nothing has queued no call that does harm. -/
theorem guarded_of_quiet {s : Running} (h : Quiet (World.Covers vault surplus) s) : Guarded vault surplus s := by
  refine ⟨h.1, ?_⟩
  rw [h.2]
  exact List.forall_mem_nil _

/-- In the vault an endpoint leaves what is owed covered, and in another contract it adds to it at most. -/
theorem runEndpoint_guarded (hr : host.registry = Contracts.registry) (hl : launch.Guards vault)
    (hc : f.call.IsHarmless vault) {w : World} (hw : w.Covers vault surplus) {e : Endpoint}
    (he : resolve host f.call w = .ok (some e)) :
    Leads (Begun vault (income vault f.call) f.call) (fun _ => Guarded vault 0) (fun _ => True)
      (runEndpoint host launch f e) := by
  obtain ⟨code, contract, hcode, hcontract, hfound⟩ := resolve_eq_some he
  rw [World.Extends.code_account] at hcode
  by_cases hvault : f.call.receiver = vault
  · rw [hvault, hw.code_eq] at hcode
    obtain rfl := Option.some.inj hcode
    rw [hr] at hcontract
    obtain rfl : Contracts.Vault.contract = contract := Option.some.inj hcontract
    -- the invariant is broken inside of the endpoint, so only its end is looked at
    obtain ⟨_, hmem⟩ := Contract.exists_mem_of_find? hfound
    have hcovered : LeavesCovered host launch f vault e :=
      vault_leavesCovered hvault (hc.length_sender hvault) hc.parsed _ hmem
    exact (runEndpoint_leads (fun _ h => h) hcovered).mono (fun _ h => h) (fun _ _ h => guarded_of_quiet h) fun _ h => h
  · have hlength := hw.length_eq f.call.receiver (by rw [hcode]; rfl)
    have hplain : e.IsPlain := of_resolve (hr ▸ Contracts.registry_plain) he
    have hrun : Preserves _ (run host launch f (e.body ⟨f.call, f.asyncResult⟩)) :=
      run_guarded hl hvault hlength (hplain ⟨f.call, f.asyncResult⟩ hc.parsed)
    refine (runEndpoint_leads (fun _ h => h) (.of_preserves hrun fun _ _ => trivial)).mono (fun s hs => ?_)
      (fun _ _ h => h.1) fun _ h => h
    exact ⟨(guarded_of_quiet hs.1).kept, hs.2⟩

/-! ### Frames -/

/-- What is paid has come in when the endpoint begins, whether it is moved in the frame or was moved before. -/
theorem body_guarded (hr : host.registry = Contracts.registry) (hl : launch.Guards vault)
    (hc : f.call.IsHarmless vault) (movesValue : Bool) :
    Leads (Begun vault (if movesValue then 0 else income vault f.call) f.call) (fun _ => Guarded vault 0)
      (fun _ => True) (body host launch f movesValue) := by
  intro s hs
  set surplus := if movesValue then 0 else income vault f.call
  have hmove : Leads (Begun vault 0 f.call) (fun _ => Begun vault (income vault f.call) f.call) (fun _ => True)
      (onWorld (World.moveValue f.call)) := by
    have hcovers := World.moveValue_covers (s := 0) hc.unpaid
    rw [Int.zero_add] at hcovers
    have hworld := onWorld_leads (A := fun s => s.queued = [] ∧ Informed f.call s) (fun _ _ h => h) hcovers
    exact hworld.mono (fun _ h => and_assoc.1 h) (fun _ _ h => and_assoc.2 h) fun _ _ => trivial
  have hrest : Leads (Begun vault surplus f.call) (fun _ => Guarded vault 0) (fun _ => True) (do
      let e ← Action.ofExcept ((resolve host f.call s.stage.world).mapError .failure)
      charge (← gasAmount (entryCost host e))
      if movesValue then onWorld (World.moveValue f.call)
      runFound host launch f e) := by
    refine .ofExcept_bind (fun _ _ => trivial) fun e he => ?_
    have hcharge : ∀ a, Leads (Begun vault surplus f.call) (fun _ => Begun vault surplus f.call) (fun _ => True)
        (charge a) := fun a => .of_preserves (fun _ h => h) fun _ _ => trivial
    have hrun : Leads (Begun vault (income vault f.call) f.call) (fun _ => Guarded vault 0) (fun _ => True)
        (runFound host launch f e) := by
      cases e with
      | none => exact .pure fun s h => (guarded_of_quiet h.1).kept
      | some e => exact runEndpoint_guarded hr hl hc hs.1.1 (Action.mapError_eq_ok.1 he)
    refine (Leads.of_preserves (gasAmount_preserves _) fun _ _ => trivial).bind fun a => (hcharge a).bind fun _ => ?_
    cases movesValue with
    | true => exact hmove.bind fun _ => hrun
    | false => exact hrun
  exact hrest s hs

/-! ### Ends of frames -/

theorem launchBody_guards {run : Frame → Bool → Action Running (List Bytes)}
    (hb : ∀ f movesValue, f.call.IsHarmless vault →
      Leads (Begun vault (if movesValue then 0 else income vault f.call) f.call) (fun _ => Guarded vault 0)
        (fun _ => True) (run f movesValue)) : (launchBody run).Guards vault := by
  intro f movesValue stage hc hstage
  have hpayments : Informed f.call (f.entered stage) := ⟨_, false, CallValue.enter_consistent f.call _⟩
  have hend := hb f movesValue hc (f.entered stage) ⟨⟨hstage, rfl⟩, hpayments⟩
  rcases hr : run f movesValue (f.entered stage) with ⟨e | data, t⟩
  · rw [launchBody_of_error hr]
    refine ⟨hstage.weaken ?_, List.forall_mem_nil _⟩
    split
    · exact le_refl 0
    · exact income_nonneg vault f.call
  · rw [launchBody_of_ok hr]
    exact hend.1 data t hr

/-- Every frame of the standard contracts guards every vault. -/
theorem launch_guards (hr : host.registry = Contracts.registry) : ∀ room, (Frame.launch host room).Guards vault
  | 0 => launchBody_guards fun _ _ _ => .stop fun _ _ => trivial
  | room + 1 => launchBody_guards fun _ movesValue hc => body_guarded hr (launch_guards hr room) hc movesValue

end Frame

end TrialLedger
