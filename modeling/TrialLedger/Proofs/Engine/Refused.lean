import TrialLedger.Proofs.Engine.Parts
import TrialLedger.Proofs.Engine.Stable
import TrialLedger.Proofs.World.Refused

/-! Requests that are refused. When a call fails in the frame that makes it, before the callee is
entered, that frame is as it was. The one exception is a payment made ahead whose later transfers
fail: the gas comes back, and the transfers before them stay where they went. -/

namespace TrialLedger

open TrialLedger.Action (Leads Preserves Raises)

/-- No frame has begun between the two states. -/
def Running.Unentered (s s' : Running) : Prop :=
  ∃ events, s'.stage.journal = events ++ s.stage.journal ∧ ∀ c b depth k, Event.entered c b depth k ∉ events

/-- Frames leave a trace of their beginning. -/
def Launch.Enters (launch : Launch) : Prop :=
  ∀ f movesValue stage, .entered f.call f.budget stage.stack.length f.asyncDepth :: stage.journal <:+
    (launch f movesValue stage).stage.journal

namespace Frame

variable {host : Host} {launch : Launch} {f : Frame} {s s' : Running} {past : List Event} {r : CallRequest}
  {reason : Failure}

/-! ### Journals only grow -/

/-- The past events of a running frame. -/
abbrev Past (past : List Event) (s : Running) : Prop := past <:+ s.stage.journal

theorem past_withstands (hl : launch.Enters) : Withstands (Past past) launch where
  gas _ h := h
  payments _ h := h
  pending _ _ h := h
  world _ h := h
  noted _ h := h.trans (List.suffix_cons _ _)
  nested g movesValue h := h.trans ((List.suffix_cons _ _).trans (hl g movesValue _))

/-- A nested frame that has run has begun. -/
theorem runChild_suffix (hl : launch.Enters) {c : Call} {b : Amount} {movesValue : Bool}
    {o : Except Stop (List Bytes)} (h : runChild launch f c b movesValue s = (o, s')) :
    .entered c b s.stage.stack.length f.asyncDepth :: s.stage.journal <:+ s'.stage.journal := by
  have henter := hl ⟨c, b, f.asyncDepth, none⟩ movesValue s.stage
  rcases runChild_cases h with ⟨g, -, -, rfl⟩ | ⟨left, -, ⟨done, -, -, rfl⟩ | ⟨e, -, -, rfl⟩⟩
  · exact henter
  · exact henter.trans (List.suffix_cons _ _)
  · exact henter.trans (List.suffix_cons _ _)

theorem launchBody_enters {body : Frame → Bool → Action Running (List Bytes)}
    (hb : ∀ f movesValue past, Preserves (Past past) (body f movesValue)) : (launchBody body).Enters := by
  intro f movesValue stage
  have h := hb f movesValue _ (f.entered stage) List.suffix_rfl
  rcases hr : body f movesValue (f.entered stage) with ⟨e | data, t⟩
  · rw [launchBody_of_error hr]
    rw [hr] at h
    exact h.trans (List.suffix_cons _ _)
  · rw [launchBody_of_ok hr]
    rw [hr] at h
    exact h.trans (List.suffix_cons _ _)

theorem launch_enters (host : Host) : ∀ room, (Frame.launch host room).Enters
  | 0 => launchBody_enters fun _ _ _ => .stop _
  | room + 1 => launchBody_enters fun _ movesValue _ => (past_withstands (launch_enters host room)).body movesValue

/-- A nested frame that has run was entered, also since before its call was prepared. -/
theorem not_unentered (hl : launch.Enters) {c : Call} {b : Amount} {movesValue : Bool}
    {o : Except Stop (List Bytes)} {s₁ : Running} (h : runChild launch f c b movesValue s₁ = (o, s'))
    (hs : s.stage.journal <:+ s₁.stage.journal) : ¬ s.Unentered s' := by
  rintro ⟨events, hevents, hnone⟩
  obtain ⟨later, hlater⟩ := runChild_suffix hl h
  obtain ⟨between, hbetween⟩ := hs
  rw [hevents, ← hbetween, ← List.cons_append, ← List.append_assoc] at hlater
  have heq := List.append_cancel_right hlater
  refine hnone c b s₁.stage.stack.length f.asyncDepth ?_
  rw [← heq]
  simp

/-! ### What stops with a fault alone -/

/-- Stops that no contract signals. -/
def OnlyFaults {α : Type} (x : Action Running α) : Prop := Raises (fun e => ∃ g, e = .fault g) x

theorem OnlyFaults.ne_failure {α : Type} {x : Action Running α} (hx : OnlyFaults x) :
    x s ≠ (.error (.failure reason), s') := by
  intro h
  obtain ⟨g, hg⟩ := hx s (.failure reason) (by rw [h])
  cases hg

theorem ofExcept_onlyFaults {α : Type} (x : Except Fault α) : OnlyFaults (Action.ofExcept (x.mapError .fault)) := by
  refine .ofExcept fun e he => ?_
  cases x with
  | ok a => cases he
  | error g => exact ⟨g, (Except.error.inj he).symm⟩

theorem encodeItems_onlyFaults (v : Value) : OnlyFaults (encodeItems v) := by
  refine .bind (ofExcept_onlyFaults _) fun vs => .ofExcept fun e he => ?_
  cases hx : Codec.encodeAll vs with
  | ok a =>
    rw [hx] at he
    cases he
  | error g =>
    rw [hx] at he
    exact ⟨_, (Except.error.inj he).symm⟩

theorem refund_onlyFaults (m : Meter) : OnlyFaults (refund m) := by
  intro s e h
  obtain ⟨⟨g, hg, -⟩, -⟩ := refund_eq_error (Prod.ext h rfl)
  exact ⟨g, hg⟩

theorem report_onlyFaults (x : Action Running (List Bytes)) (check : Except Fault Unit) :
    OnlyFaults (report x check) := by
  refine .bind (.attempt x) fun o => ?_
  split
  · exact .pure _
  · exact .bind (ofExcept_onlyFaults check) fun _ => .pure _
  · exact .stop ⟨_, rfl⟩

/-! ### Refused requests -/

/-- A payment made ahead that fails gives the gas back, and leaves the world as the payment does. -/
theorem moveAhead_eq_failure {c : Call} {b : Amount} (h : moveAhead c b s = (.error (.failure reason), s')) :
    ∃ w left, World.moveValue c s.stage.world = (.error (.failure reason), w) ∧
      s.gas.remaining.plus b = .ok left ∧
      s' = (({ s with stage := { s.stage with world := w } } : Running).holding left).noted (.refunded b) := by
  rw [moveAhead_apply] at h
  split at h
  · cases h
  · rename_i e t hr
    rcases Action.bind_eq_error.1 h with hback | ⟨_, t', hback, hfail⟩
    · exact absurd hback (refund_onlyFaults _).ne_failure
    · cases hfail
      obtain ⟨w, hw, rfl⟩ := onWorld_eq.1 hr
      obtain ⟨left, hleft, rfl⟩ := refund_eq_ok hback
      exact ⟨w, left, hw, hleft, rfl⟩
  · cases h

/-- A call that fails before the callee is entered could not be prepared, or not be paid ahead. -/
theorem makeCall_refused (hl : launch.Enters) {mode : CallMode}
    (h : makeCall launch f r mode s = (.error (.failure reason), s')) (hun : s.Unentered s') :
    s' = s ∨ mode = .keepValue ∧ ∃ c b t, prepare f r .transferExecute s = (.ok (c, b), t) ∧
      moveAhead c b t = (.error (.failure reason), s') := by
  -- What a prepared call leaves behind it comes after all that was there before.
  have hpast : ∀ {kind c b t}, prepare f r kind s = (.ok (c, b), t) → s.stage.journal <:+ t.stage.journal := by
    intro kind c b t hp
    have hprepared := (past_withstands hl).metered.prepare (f := f) r kind s (List.suffix_refl s.stage.journal)
    rwa [hp] at hprepared
  cases mode with
  | propagate =>
    rcases Action.bind_eq_error.1 h with hp | ⟨⟨c, b⟩, t, hp, hx⟩
    · exact .inl (prepare_eq_error hp)
    · exact absurd hun (not_unentered hl hx (hpast hp))
  | report =>
    rcases Action.bind_eq_error.1 h with hp | ⟨⟨c, b⟩, t, -, hx⟩
    · exact .inl (prepare_eq_error hp)
    · exact absurd hx (report_onlyFaults _ _).ne_failure
  | keepValue =>
    rcases Action.bind_eq_error.1 h with hp | ⟨⟨c, b⟩, t, hp, h⟩
    · exact .inl (prepare_eq_error hp)
    rcases Action.bind_eq_error.1 h with hm | ⟨_, t', -, hx⟩
    · exact .inr ⟨rfl, c, b, t, hp, hm⟩
    · split at hx
      · have hback : OnlyFaults (do refund (Meter.full b); pure (.ok []) : Action Running CallResult) :=
          .bind (refund_onlyFaults _) fun _ => .pure _
        exact absurd hx hback.ne_failure
      · exact absurd hx (report_onlyFaults _ _).ne_failure

/-- A call that cannot be queued leaves the frame as it was. -/
theorem callAsync_refused {callback arguments : Value}
    (h : callAsync host f r callback arguments s = (.error (.failure reason), s')) : s' = s := by
  unfold callAsync at h
  by_cases hd : host.settings.maxAsyncDepth ≤ f.asyncDepth
  · rw [if_pos hd] at h
    cases h
    rfl
  · rw [if_neg hd] at h
    rcases Action.bind_eq_error.1 h with hp | ⟨⟨c, b⟩, t, -, h⟩
    · exact prepare_eq_error hp
    · refine absurd h (OnlyFaults.ne_failure ?_)
      exact .bind (encodeItems_onlyFaults _) fun _ => .bind (.modify _) fun _ => .bind (.modify _) fun _ =>
        ofExcept_onlyFaults _

/-- A frame that runs an endpoint is one of an account that is there. -/
theorem account_of_resolve {c : Call} {w : World} {e : Endpoint} (h : resolve host c w = .ok (some e)) :
    (w.account? c.receiver).isSome := by
  unfold resolve at h
  cases ha : w.account? c.receiver with
  | none =>
    rw [ha] at h
    cases h
  | some a => rfl

end Frame

/-- The payment of a requested call has been made in part: some of its transfers have gone to the
receiver, and others have not. -/
def CallRequest.PaidInPart (r : CallRequest) (f : Frame) (w w' : World) : Prop :=
  ∃ c moved rest, r.Describes f.call .transferExecute c ∧ c.transfers = moved ++ rest ∧
    moved ≠ [] ∧ rest ≠ [] ∧
    World.transferAll f.call.receiver c.receiver moved w = (.ok (), w') ∧
    (w.IsWhole →
      w.Shifts (Asset.between f.call.receiver c.receiver (World.paid moved)) w' ∧
      (c.receiver ≠ f.call.receiver → w' ≠ w))

namespace Engine

/-- A refused request leaves its frame as it was, on whole amounts of gas and where the frame's account is
there: so it is when an endpoint is entered and after every request of it. Only a payment made
ahead may be refused with a part of its transfers made, and then the gas comes back all the same. -/
theorem refused_unchanged (e : Engine) (room : Nat) (f : Frame) :
    (∀ w endpoint, Frame.resolve e.host f.call w = .ok (some endpoint) →
      (w.account? f.call.receiver).isSome) ∧
    (∀ q, Preserves (Frame.Holds fun w => (w.account? f.call.receiver).isSome)
      (Frame.answer e.host (Frame.launch e.host room) f q)) ∧
    ∀ (r : CallRequest) (s s' : Running) reason, s.gas.remaining.IsWhole → r.gas.IsPointless →
      (s.stage.world.account? f.call.receiver).isSome →
        (∀ mode, Frame.makeCall (Frame.launch e.host room) f r mode s = (.error (.failure reason), s') →
          s.Unentered s' →
            s'.gas = s.gas ∧ s'.logs = s.logs ∧ s'.queued = s.queued ∧
              (s'.stage.world = s.stage.world ∨
                mode = .keepValue ∧ r.PaidInPart f s.stage.world s'.stage.world)) ∧
        ∀ callback arguments,
          Frame.callAsync e.host f r callback arguments s = (.error (.failure reason), s') → s' = s := by
  refine ⟨fun _ _ h => Frame.account_of_resolve h, fun q => ?_, fun r s s' reason hgas hr hself => ?_⟩
  · have hl : (Frame.launch e.host room).Keeps fun w => (w.account? f.call.receiver).isSome :=
      Frame.launch_keeps (World.stable_account _) (fun _ _ _ _ _ _ _ => Program.asks_true _) room
    exact (Frame.keeps_holds (World.stable_account f.call.receiver) hl).answer q trivial
  refine ⟨fun mode h hun => ?_, fun _ _ h => Frame.callAsync_refused h⟩
  rcases Frame.makeCall_refused (Frame.launch_enters e.host room) h hun with rfl | ⟨rfl, c, b, t, hp, hm⟩
  · exact ⟨rfl, rfl, rfl, .inl rfl⟩
  obtain ⟨hc, hb, left, hleft, rfl⟩ := Frame.prepare_eq_ok hp
  obtain ⟨w, left', hw, hleft', rfl⟩ := Frame.moveAhead_eq_failure hm
  have hback : left' = s.gas.remaining :=
    Amount.plus_of_minus hgas (CallRequest.isWhole_of_asked hr hgas hb) hleft hleft'
  rw [← hc.sender] at hself
  obtain ⟨moved, rest, hts, hrest, hmoved⟩ := World.moveValue_partly hself hw
  refine ⟨congrArg (fun left => { s.gas with remaining := left }) hback, rfl, rfl, ?_⟩
  by_cases hnil : moved = []
  · rw [hnil] at hmoved
    exact .inl (congrArg Prod.snd hmoved).symm
  · refine .inr ⟨rfl, c, moved, rest, hc, hts, hnil, hrest hnil, hc.sender ▸ hmoved, fun hwhole => ?_⟩
    have hshifts := World.transferAll_shifts moved hwhole.account hmoved
    obtain ⟨t, ht⟩ := List.exists_mem_of_ne_nil moved hnil
    have hamount : t.amount ≠ 0 := c.amount_ne_zero t (by rw [hts]; exact List.mem_append_left _ ht)
    rw [hc.sender] at hshifts
    exact ⟨hshifts, fun hne => hshifts.ne hne ht hamount⟩

/-! ### A payment of two tokens -/

/-- Three pieces of one token and one of another. -/
def pairPayment : CallRequest where
  receiver := .bytes [2]
  transfers := .list [.transfer ⟨.issued [84], 0, 3⟩, .transfer ⟨.issued [85], 0, 1⟩]
  gas := .int 2000

/-- Pays so, and goes on if that fails. -/
def payPair (_ : Entry) : Program Value :=
  (do
    let _ ← Program.request (.call .keepValue pairPayment)
    return .nothing : Program Value).orElse fun _ => .done .nothing

/-- An engine with a contract that does so and has five pieces of the first token. -/
def pairEngine : Engine where
  host := {
    registry := ⟨Table.ofList [("sample", ⟨Table.ofList [
      ("pay", { name := "pay", method := "pay", body := payPair })]⟩)]⟩
    settings := {} }
  world := { accounts := Table.ofList [
    ([1], { dct := Table.ofList [(([84], .number 0), ⟨.int 0, 5⟩)], code := some "sample" }),
    ([2], {})] }

def pairCall : Call := .unpaid [3] [1] "pay" 10000

def pairFrame : Frame := ⟨pairCall, 10000, 0, none⟩

def beforePair : Running := pairFrame.entered ⟨pairEngine.world, [], []⟩

/-- The payment fails for want of the second token, and the first one stays with the receiver. -/
theorem keepValue_paidInPart :
    (∃ s', Frame.makeCall (Frame.launch pairEngine.host 1) pairFrame pairPayment .keepValue beforePair =
        (.error (.failure .insufficientFunds), s') ∧ beforePair.Unentered s' ∧
        beforePair.stage.world.dctBalance [2] [84] (.number 0) = 0 ∧
        s'.stage.world.dctBalance [2] [84] (.number 0) = 3) ∧
      ∃ result, (execute pairCall pairEngine).1 = .ok result ∧ result.isSuccess = true ∧
        (execute pairCall pairEngine).2.world.dctBalance [2] [84] (.number 0) = 3 := by
  refine ⟨⟨_, Prod.ext rfl rfl, ⟨[.refunded 2000, .reserved 2000], rfl, ?_⟩, rfl, rfl⟩, _, rfl, rfl, rfl⟩
  simp

/-- A call on more gas than a frame of the contract has. -/
def dearCall : CallRequest where
  receiver := .bytes [2]
  gas := .int 20000

/-- The gas of the payment comes back, and a call on more gas than there is changes nothing. -/
theorem refused_unchanged_pair :
    (∃ s', Frame.makeCall (Frame.launch pairEngine.host 1) pairFrame pairPayment .keepValue beforePair =
        (.error (.failure .insufficientFunds), s') ∧ s'.gas = beforePair.gas ∧
        pairPayment.PaidInPart pairFrame beforePair.stage.world s'.stage.world) ∧
      ∃ s', Frame.makeCall (Frame.launch pairEngine.host 1) pairFrame dearCall .report beforePair =
          (.error (.failure .outOfGas), s') ∧ s'.stage.world = beforePair.stage.world := by
  obtain ⟨-, -, hrefused⟩ := refused_unchanged pairEngine 1 pairFrame
  have hmoved : (Frame.makeCall (Frame.launch pairEngine.host 1) pairFrame pairPayment .keepValue
      beforePair).2.stage.world.dctBalance [2] [84] (.number 0) = 3 := rfl
  constructor
  · obtain ⟨s', hs⟩ : ∃ s', Frame.makeCall (Frame.launch pairEngine.host 1) pairFrame pairPayment
        .keepValue beforePair = (.error (.failure .insufficientFunds), s') := ⟨_, Prod.ext rfl rfl⟩
    have hun : beforePair.Unentered s' := by
      obtain rfl := congrArg Prod.snd hs
      exact ⟨[.refunded 2000, .reserved 2000], rfl, by simp⟩
    rw [hs] at hmoved
    obtain ⟨hgas, -, -, hworld⟩ :=
      (hrefused pairPayment beforePair s' _ ⟨10000, rfl⟩ nofun rfl).1 .keepValue hs hun
    refine ⟨s', hs, hgas, ?_⟩
    rcases hworld with hworld | ⟨-, hpart⟩
    · rw [hworld] at hmoved
      cases hmoved
    · exact hpart
  · obtain ⟨s', hs⟩ : ∃ s', Frame.makeCall (Frame.launch pairEngine.host 1) pairFrame dearCall
        .report beforePair = (.error (.failure .outOfGas), s') := ⟨_, Prod.ext rfl rfl⟩
    have hun : beforePair.Unentered s' := by
      obtain rfl := congrArg Prod.snd hs
      exact ⟨[], rfl, by simp⟩
    obtain ⟨-, -, -, hworld⟩ := (hrefused dearCall beforePair s' _ ⟨10000, rfl⟩ nofun rfl).1 .report hs hun
    rcases hworld with hworld | ⟨hmode, -⟩
    · exact ⟨s', hs, hworld⟩
    · cases hmode

end Engine

end TrialLedger
