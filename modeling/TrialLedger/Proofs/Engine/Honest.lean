import TrialLedger.Proofs.Engine.Nested
import TrialLedger.Proofs.World.Transfer

/-! Failures say that they are failures. None of the engine carries the status of a success, so a
frame that stops does not pass for one that ran through as long as contract code does not lie. -/

namespace TrialLedger

/-- A failure with a status other than that of a success, or a fault. -/
def Stop.IsHonest : Stop → Prop
  | .failure f => f.status ≠ .ok
  | .fault _ => True

instance : DecidablePred Stop.IsHonest
  | .failure f => inferInstanceAs (Decidable (f.status ≠ .ok))
  | .fault _ => .isTrue trivial

theorem Failure.user_honest (message : String) : (Stop.failure (user message)).IsHonest := nofun

/-- The action stops honestly if at all. -/
abbrev Action.Honest {σ α : Type} (x : Action σ α) : Prop := Action.Raises Stop.IsHonest x

namespace Action

variable {σ α : Type}

theorem fault_honest (f : Fault) : (fault f : Action σ α).Honest := .stop trivial

theorem fail_honest {f : Failure} (hf : f.status ≠ .ok) : (fail f : Action σ α).Honest := .stop hf

theorem ofFault_honest (r : Except Fault α) : (ofExcept (r.mapError .fault) : Action σ α).Honest := by
  refine .ofExcept fun e he => ?_
  cases r with
  | ok a => cases he
  | error f =>
    cases he
    trivial

end Action

open TrialLedger.Action (Raises Honest fault_honest fail_honest ofFault_honest)

/-! ### Handles and call values -/

namespace HandleTable

theorem checkLive_honest : checkLive.Honest := by
  intro t e h
  unfold checkLive at h
  split at h
  · cases h
    trivial
  · cases h

theorem new_honest (v : Value) : (new v).Honest := .bind checkLive_honest fun _ _ _ h => by cases h

theorem store_honest (k : Key) (v : Value) : (store k v).Honest :=
  .bind checkLive_honest fun _ => .modify _

theorem load_honest (k : Key) (name : String) : (load k name).Honest := by
  refine .bind checkLive_honest fun _ t e h => ?_
  split at h
  · cases h
  · cases h
    trivial

theorem loadAt_honest (v : Value) : (loadAt v).Honest :=
  .bind (.bind checkLive_honest fun _ => ofFault_honest _) fun _ => load_honest _ _

end HandleTable

namespace CallValue

variable {α : Type}

theorem onHandles_honest {x : Action HandleTable α} (hx : x.Honest) : (onHandles x).Honest := .zoom hx

theorem ask_honest {x : Call → Action HandleTable α} (hx : ∀ c, (x c).Honest) : (ask x).Honest :=
  fun s => onHandles_honest (hx s.call) s

theorem illTyped_honest (v : Value) : (illTyped v : Action CallValue α).Honest := fault_honest _

namespace Host

theorem plain_honest {r : Except Failure α} (hr : ∀ f, r = .error f → f.status ≠ .ok) :
    (plain r).Honest := by
  refine .ofExcept fun e he => ?_
  cases r with
  | ok a => cases he
  | error f =>
    cases he
    exact hr f rfl

theorem single_honest (c : Call) : (plain c.single?).Honest := by
  refine plain_honest fun f hf => ?_
  unfold Call.single? at hf
  split at hf
  · cases hf
  · cases hf
  · cases hf
    decide

theorem checkNotPayable_honest (c : Call) : (checkNotPayable c).Honest := by
  refine plain_honest fun f hf => ?_
  unfold Call.checkNotPayable at hf
  split at hf
  · cases hf
    decide
  · split at hf
    · cases hf
      decide
    · cases hf

theorem token_honest (c : Call) : (token c).Honest := by
  refine .bind (single_honest c) fun t => ?_
  split
  · exact .pure _
  · exact .bind (HandleTable.new_honest _) fun _ => .pure _

theorem tokenNonce_honest (c : Call) : (tokenNonce c).Honest := by
  refine .bind (single_honest c) fun t => ?_
  split <;> exact .pure _

theorem tokenType_honest (c : Call) : (tokenType c).Honest := by
  refine .bind (single_honest c) fun t => ?_
  split <;> exact .pure _

theorem allocateRows_honest : ∀ ts, (allocateRows ts).Honest
  | [] => .pure _
  | _ :: ts => .bind (HandleTable.new_honest _) fun _ => .bind (HandleTable.new_honest _) fun _ =>
    .bind (allocateRows_honest ts) fun _ => .pure _

theorem loadAll_honest (c : Call) (dest : Key) : (loadAll c dest).Honest :=
  .bind (HandleTable.store_honest _ _) fun _ => .bind .get fun _ => .bind (allocateRows_honest _) fun _ =>
    .bind .get fun _ => .ite (.pure _) (HandleTable.store_honest _ _)

end Host

/-- A value that is fetched once and then read. -/
theorem fetch_honest {isFetched : CallValue → Bool} {mark : CallValue → CallValue}
    {x : Call → Action HandleTable Unit} (hx : ∀ c, (x c).Honest) (handle : Int) :
    (do
      if !isFetched (← Action.get) then
        Action.modify mark
        ask x
      onHandles (HandleTable.get handle) : Action CallValue Value).Honest := by
  have hget := onHandles_honest (HandleTable.load_honest (.number handle) (toString handle))
  exact .bind .get fun _ => .ite (.bind (.modify _) fun _ => .bind (ask_honest hx) fun _ => hget) hget

theorem nativeValue_honest : nativeValue.Honest := fetch_honest (fun _ => HandleTable.store_honest _ _) _

theorem dctValue_honest : dctValue.Honest :=
  fetch_honest (fun c => .bind (Host.single_honest c) fun _ => HandleTable.store_honest _ _) _

theorem allRows_honest : allRows.Honest := fetch_honest (fun c => Host.loadAll_honest c _) _

theorem asInt_honest (v : Value) : (asInt v).Honest := by
  unfold asInt
  split
  · exact .pure _
  · exact illTyped_honest _

theorem asToken_honest (v : Value) : (asToken v).Honest := by
  unfold asToken
  split
  · exact .pure _
  · exact illTyped_honest _

theorem readRows_honest : ∀ rows, (readRows rows).Honest
  | [] => .pure _
  | row :: rows => by
    have hrow : (readRow row).Honest := .bind (ofFault_honest _) fun _ =>
      .bind (onHandles_honest (HandleTable.loadAt_honest _)) fun _ =>
        .bind (onHandles_honest (HandleTable.loadAt_honest _)) fun _ => ofFault_honest _
    exact .bind hrow fun _ => .bind (readRows_honest rows) fun _ => .pure _

theorem transfers_honest : transfers.Honest :=
  .bind allRows_honest fun _ => .bind (ofFault_honest _) fun _ => readRows_honest _

theorem fixedCount_honest (n : Int) : (fixedCount n).Honest :=
  .bind transfers_honest fun _ => .ite (fail_honest (by decide)) (.pure _)

theorem single_honest : single.Honest := by
  refine .bind (fixedCount_honest 1) fun ts => ?_
  split
  · exact .pure _
  · exact fail_honest (by decide)

theorem requireFungible_honest (t : Transfer) : (requireFungible t).Honest :=
  .ite (.pure _) (fail_honest (by decide))

theorem nativeOrSingle_honest : nativeOrSingle.Honest := by
  refine .bind transfers_honest fun ts => ?_
  split
  · exact .bind nativeValue_honest fun _ => ofFault_honest _
  · exact .pure _
  · exact fail_honest (by decide)

theorem token_honest : token.Honest := by
  refine .bind (ask_honest Host.token_honest) fun t => ?_
  split
  · exact .pure _
  · exact .bind (onHandles_honest (HandleTable.load_honest _ _)) fun _ => asToken_honest _

theorem transferAt_honest (i : Int) : (transferAt i).Honest :=
  have hnew : ∀ g : Call → Transfer → Value, (ask fun c => do
      let t ← Host.indexed (c.transferAt i)
      HandleTable.new (g c t)).Honest :=
    fun _ => ask_honest fun _ => .bind (ofFault_honest _) fun _ => HandleTable.new_honest _
  .bind (hnew fun _ t => .token t.token) fun _ =>
    .bind (onHandles_honest (HandleTable.load_honest _ _)) fun _ =>
    .bind (asToken_honest _) fun _ =>
      .bind (ask_honest fun _ => .bind (ofFault_honest _) fun _ => .pure _) fun _ =>
        .bind (hnew fun _ t => .int t.amount) fun _ =>
          .bind (onHandles_honest (HandleTable.load_honest _ _)) fun _ =>
          .bind (asInt_honest _) fun _ => .pure _

theorem answer_honest (q : Query) : (answer q).Honest := by
  cases q with
  | checkNotPayable => exact ask_honest Host.checkNotPayable_honest
  | nativeAmount => exact .bind nativeValue_honest fun _ => asInt_honest _
  | dctAmount => exact .bind dctValue_honest fun _ => asInt_honest _
  | token => exact token_honest
  | tokenNonce => exact ask_honest Host.tokenNonce_honest
  | tokenType => exact ask_honest Host.tokenType_honest
  | tokenTypeAt i => exact ask_honest fun _ => .bind (ofFault_honest _) fun _ => .pure _
  | transfers => exact transfers_honest
  | transferCount => exact fun _ _ h => by cases h
  | transferAt i => exact transferAt_honest i
  | fixedCount n => exact fixedCount_honest n
  | single => exact single_honest
  | singleFungible => exact .bind single_honest requireFungible_honest
  | nativeOrSingle => exact nativeOrSingle_honest
  | nativeOrSingleFungible => exact .bind nativeOrSingle_honest requireFungible_honest

end CallValue

/-! ### Worlds -/

namespace World

theorem change_honest (place : Place) (f : Account → Except Fault Account) :
    (change place f).Honest := by
  intro w e h
  unfold change at h
  split at h <;> split at h
  · cases h
  · cases h
    trivial
  · cases h
    trivial
  · dsimp only at h
    split at h
    · cases h
    · cases h
      trivial

theorem transfer_honest (sender : Bytes) (receiver : Place) (token : Token) (n : Nonce) (a : Amount) :
    (transfer sender receiver token n a).Honest := by
  intro w e h
  rw [transfer_apply] at h
  split at h
  · cases h
  · split at h
    · cases h
      decide
    · exact (Raises.bind (change_honest _ _) fun _ => change_honest _ _) _ _ h

theorem moveValue_honest (c : Call) : (moveValue c).Honest := by
  have hall : ∀ ts, (transferAll c.sender c.receiver ts).Honest := by
    intro ts
    induction ts with
    | nil => exact .pure _
    | cons t ts ih => exact .bind (transfer_honest _ _ _ _ _) fun _ => ih
  exact .ite (.bind (transfer_honest _ _ .native (0 : Int) _) fun _ => hall _) (.pure _)

end World

/-! ### Frames -/

/-- A frame that stops does so honestly. -/
def Launch.Honest (launch : Launch) : Prop :=
  ∀ f movesValue stage e, (launch f movesValue stage).outcome = .error e → e.IsHonest

namespace Frame

variable {α : Type} {host : Host} {launch : Launch} {f : Frame}

theorem onGas_honest {x : Action Meter α} (hx : x.Honest) : (onGas x).Honest := .zoom hx

theorem onWorld_honest {x : Action World α} (hx : x.Honest) : (onWorld x).Honest := .zoom hx

theorem note_honest (e : Event) : (note e).Honest := .modify _

end Frame

namespace Meter

theorem withdraw_honest (a : Amount) : (withdraw a).Honest := by
  intro m e h
  unfold withdraw at h
  split at h
  · cases h
  · cases h
    trivial

theorem charge_honest (a : Amount) : (charge a).Honest := by
  intro m e h
  unfold charge at h
  split at h
  · cases h
    decide
  · exact withdraw_honest _ _ _ h

theorem reserve_honest (a : Option Amount) : (reserve a).Honest := by
  intro m e h
  unfold reserve at h
  dsimp only at h
  split at h
  · cases h
    decide
  · exact (Raises.bind (withdraw_honest _) fun _ => .pure _) _ _ h

theorem refund_honest (child : Meter) : (refund child).Honest := by
  intro m e h
  unfold refund at h
  split at h
  · cases h
  · cases h
    trivial

end Meter

namespace Frame

variable {host : Host} {launch : Launch} {f : Frame}

theorem gasAmount_honest (v : Value) : (gasAmount v).Honest := by
  unfold gasAmount
  split
  · exact .pure _
  · exact .bind .get fun _ => fault_honest _

theorem charge_honest (a : Amount) : (charge a).Honest :=
  .bind .get fun _ => .bind (note_honest _) fun _ => onGas_honest (Meter.charge_honest a)

theorem refund_honest (m : Meter) : (refund m).Honest :=
  .bind (onGas_honest (Meter.refund_honest m)) fun _ => note_honest _

theorem encode_honest (v : Value) : (encode v).Honest := by
  refine .ofExcept fun e he => ?_
  cases h : Codec.encode v <;> rw [h] at he <;> cases he
  trivial

theorem encodeItems_honest (v : Value) : (encodeItems v).Honest := by
  refine .bind (ofFault_honest _) fun vs => .ofExcept fun e he => ?_
  cases h : Codec.encodeAll vs <;> rw [h] at he <;> cases he
  trivial

theorem prepare_honest (r : CallRequest) (kind : CallKind) : (prepare f r kind).Honest := by
  have hbuild : ∀ budget, (build f r budget kind).Honest := by
    intro budget
    refine .bind (ofFault_honest _) fun ts => .bind (encodeItems_honest _) fun args =>
      .ofExcept fun e he => ?_
    cases h : r.call f.call ts args budget kind <;> rw [h] at he <;> cases he
    exact Failure.user_honest _
  exact .bind .get fun _ => .bind (hbuild _) fun _ => .bind (gasAmount_honest _) fun _ =>
    .bind (.bind (onGas_honest (Meter.reserve_honest _)) fun _ => note_honest _) fun _ => .pure _

theorem runChild_honest (hl : launch.Honest) (c : Call) (budget : Amount) (movesValue : Bool) :
    (runChild launch f c budget movesValue).Honest := by
  intro s e h
  rcases runChild_cases (Prod.ext h rfl) with ⟨g, hg, -⟩ | ⟨_, -, ⟨_, -, hd, -⟩ | ⟨e', hx, he, -⟩⟩
  · cases hg
    trivial
  · cases hd
  · cases he
    exact hl _ _ _ _ hx

theorem report_honest (x : Action Running (List Bytes)) (check : Except Fault Unit) :
    (report x check).Honest := by
  refine .bind (.attempt x) fun r => ?_
  split
  · exact .pure _
  · exact .bind (ofFault_honest _) fun _ => .pure _
  · exact fault_honest _

theorem moveAhead_honest (c : Call) (budget : Amount) : (moveAhead c budget).Honest := by
  intro s e h
  have hw := onWorld_honest (World.moveValue_honest c) s
  have h : moveAhead c budget s = (.error e, (moveAhead c budget s).2) := Prod.ext h rfl
  rcases Action.bind_eq_error.1 h with h | ⟨o, t, hx, h⟩
  · cases h
  rw [Action.attempt_apply, Prod.mk.injEq] at hx
  obtain rfl := Except.ok.inj hx.1
  rcases hr : (onWorld (World.moveValue c) s).1 with (g | g) | u
  · rw [hr] at h
    rcases Action.bind_eq_error.1 h with h | ⟨_, _, _, h⟩
    · exact refund_honest _ _ _ (congrArg Prod.fst h)
    · cases h
      exact hw _ hr
  · rw [hr] at h
    cases h
    trivial
  · rw [hr] at h
    cases h

theorem makeCall_honest (hl : launch.Honest) (r : CallRequest) (mode : CallMode) :
    (makeCall launch f r mode).Honest := by
  cases mode with
  | propagate => exact .bind (prepare_honest r _) fun _ => runChild_honest hl _ _ _
  | report => exact .bind (prepare_honest r _) fun _ => report_honest _ _
  | keepValue =>
    exact .bind (prepare_honest r _) fun _ => .bind (moveAhead_honest _ _) fun _ =>
      .ite (.bind (refund_honest _) fun _ => .pure _) (report_honest _ _)

theorem callAsync_honest (r : CallRequest) (callback arguments : Value) :
    (callAsync host f r callback arguments).Honest := by
  unfold callAsync
  by_cases hd : host.settings.maxAsyncDepth ≤ f.asyncDepth
  · rw [if_pos hd, Action.fail, Action.stop_bind]
    exact fail_honest (by decide)
  · rw [if_neg hd]
    exact .bind (prepare_honest r _) fun _ => .bind (encodeItems_honest _) fun _ =>
      .bind (.modify _) fun _ => .bind (note_honest _) fun _ => ofFault_honest _

theorem send_honest (receiver : Value) (token : Token) (nonce amount : Value) :
    (send f receiver token nonce amount).Honest := by
  refine .ite (.pure _) (.ite (.bind (.pure _) fun n => ?_) (.bind (ofFault_honest _) fun n => ?_))
  all_goals
    dsimp only
    split
    · exact onWorld_honest (World.transfer_honest _ _ _ _ _)
    · exact .bind (.bind (.bind .get fun _ => .pure _) fun _ => .pure _) fun _ => fault_honest _

theorem world_honest : world.Honest := .bind .get fun _ => .pure _

theorem balance_honest (address : Value) (token : Token) (nonce : Value) :
    (balance address token nonce).Honest := by
  refine .bind world_honest fun w => .bind (ofFault_honest _) fun a => ?_
  split
  · exact .pure _
  · exact .pure _
  · exact .bind (ofFault_honest _) fun _ => .pure _

theorem answer_honest (hl : launch.Honest) (r : Request) : (answer host launch f r).Honest := by
  cases r with
  | gasLeft => exact .bind .get fun _ => .pure _
  | balance address token nonce => exact balance_honest _ _ _
  | owner address => exact .bind world_honest fun _ => .bind (ofFault_honest _) fun _ => .pure _
  | payment query => exact .zoom (CallValue.answer_honest query)
  | storageGet key => exact .bind (ofFault_honest _) fun _ => .bind world_honest fun _ => .pure _
  | storageSet key value =>
    exact .bind (charge_honest _) fun _ => .bind (ofFault_honest _) fun _ =>
      .bind (encode_honest _) fun _ => .bind (onWorld_honest (.modify _)) fun _ => note_honest _
  | send receiver token nonce amount => exact send_honest _ _ _ _
  | log endpoint topics data =>
    exact .bind (charge_honest _) fun _ => .bind (ofFault_honest _) fun _ =>
      .bind (encodeItems_honest _) fun _ => .bind (encode_honest _) fun _ =>
        .bind (.modify _) fun _ => note_honest _
  | call mode r => exact makeCall_honest hl r mode
  | callAsync r callback arguments => exact callAsync_honest _ _ _
  | reenter => exact fault_honest _

theorem resolve_honest {c : Call} {w : World} {g : Failure} (h : resolve host c w = .error g) :
    g.status ≠ .ok := by
  unfold resolve at h
  split at h
  · cases h
  · split at h
    · cases h
    · split at h
      · cases h
        nofun
      · split at h
        · cases h
          decide
        · split at h
          · cases h
          · cases h
            decide

theorem runEndpoint_honest (hl : launch.Honest) {e : Endpoint}
    (he : ∀ entry, (e.body entry).Raises Stop.IsHonest) : (runEndpoint host launch f e).Honest := by
  have hrun : (do
      note .started
      let v ← run host launch f (e.body ⟨f.call, f.asyncResult⟩)
      Action.ofExcept ((Codec.encodeResults v).mapError fun e => .fault (.unencodable e))).Honest := by
    refine .bind (note_honest _) fun _ => .bind (run_raises (answer_honest hl) _ (he _)) fun v =>
      .ofExcept fun e h => ?_
    cases hv : Codec.encodeResults v <;> rw [hv] at h <;> cases h
    trivial
  unfold runEndpoint
  split
  · exact .bind (fail_honest (by decide)) fun _ => hrun
  · exact hrun

theorem body_honest (hr : host.registry.Raises Stop.IsHonest) (hl : launch.Honest) (movesValue : Bool) :
    (body host launch f movesValue).Honest := by
  have hend : ∀ {e w}, resolve host f.call w = .ok e → (runFound host launch f e).Honest := by
    intro e w he
    cases e with
    | none => exact .pure _
    | some e => exact runEndpoint_honest hl (of_resolve hr he)
  rw [body_eq]
  refine .bind world_honest fun w => .ofExcept_bind (fun e h => ?_) fun e he => ?_
  · cases hw : resolve host f.call w <;> rw [hw] at h <;> cases h
    exact resolve_honest hw
  · have he := hend (Action.mapError_eq_ok.1 he)
    exact .bind (gasAmount_honest _) fun _ => .bind (charge_honest _) fun _ =>
      .ite (.bind (onWorld_honest (World.moveValue_honest _)) fun _ => he) he

theorem launchBody_honest {body : Frame → Bool → Action Running (List Bytes)}
    (hb : ∀ f movesValue, (body f movesValue).Honest) : (launchBody body).Honest := by
  intro f movesValue stage e h
  rcases hr : body f movesValue (f.entered stage) with ⟨e' | data, t⟩
  · rw [launchBody_of_error hr] at h
    cases h
    exact hb f movesValue _ _ (congrArg Prod.fst hr)
  · rw [launchBody_of_ok hr] at h
    cases h

/-- Contract code that does not lie makes honest frames, at any depth. -/
theorem launch_honest (hr : host.registry.Raises Stop.IsHonest) : ∀ room, (Frame.launch host room).Honest
  | 0 => launchBody_honest fun _ _ => fail_honest (by decide)
  | room + 1 => launchBody_honest fun _ movesValue => body_honest hr (launch_honest hr room) movesValue

end Frame

end TrialLedger
