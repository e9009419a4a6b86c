import TrialLedger.Proofs.Program

/-! The requests of a program step by step. Most steps only look at the frame that runs it, so
any property goes through them; what is left to show of a property is that it survives the few
steps that change something. -/

namespace TrialLedger

/-- A call without arguments that pays nothing. -/
def Call.unpaid (sender receiver : Bytes) (function : String) (gasLimit : Nat) : Call where
  sender := sender
  receiver := receiver
  native := 0
  transfers := []
  function := function
  arguments := []
  gasLimit := gasLimit
  gasPrice := 0
  txHash := zeroHash
  kind := .direct
  amount_ne_zero := nofun
  native_eq_zero _ := rfl

/-- What the endpoint declares to cost has the property, if it is an amount. -/
def Endpoint.Costs (gas : Amount → Prop) (e : Endpoint) : Prop :=
  ∀ v, e.gasCost = some v → ∀ a, Amount.ofValue? v = some a → gas a

namespace Frame

open TrialLedger.Action (Leads Preserves)

variable {I : Running → Prop} {asks : Request → Prop} {host : Host} {launch : Launch} {f : Frame}

/-! ### Steps that only look -/

theorem pureFault_preserves {α : Type} (r : Except Fault α) : Preserves I (pureFault r) := .ofExcept _

theorem encode_preserves (v : Value) : Preserves I (encode v) := .ofExcept _

theorem encodeItems_preserves (v : Value) : Preserves I (encodeItems v) :=
  .bind (pureFault_preserves _) fun _ => .ofExcept _

theorem gasAmount_preserves (v : Value) : Preserves I (gasAmount v) := by
  unfold gasAmount
  split
  · exact .pure _
  · exact .bind .get fun _ => .stop _

theorem gasAmount_bind {α : Type} {v : Value} {g : Amount → Action Running α}
    (hg : ∀ a, Amount.ofValue? v = some a → Preserves I (g a)) : Preserves I (gasAmount v >>= g) := by
  unfold gasAmount
  cases hv : Amount.ofValue? v with
  | some a => exact fun s h => hg a hv s h
  | none => exact fun _ h => h

theorem build_preserves (r : CallRequest) (budget : Value) (kind : CallKind) :
    Preserves I (build f r budget kind) :=
  .bind (pureFault_preserves _) fun _ => .bind (encodeItems_preserves _) fun _ => .ofExcept _

theorem world_preserves : Preserves I world := .bind .get fun _ => .pure _

theorem held_preserves (token : Token) (nonce : Key) : Preserves I (held f token nonce) :=
  .bind world_preserves fun _ => .pure _

theorem balance_preserves (address : Value) (token : Token) (nonce : Value) :
    Preserves I (balance address token nonce) := by
  refine .bind world_preserves fun w => .bind (pureFault_preserves _) fun a => ?_
  split
  · exact .pure _
  · exact .pure _
  · exact .bind (pureFault_preserves _) fun _ => .pure _

theorem owner_preserves (address : Value) : Preserves I (owner f address) :=
  .bind world_preserves fun _ => .bind (pureFault_preserves _) fun _ => .pure _

theorem storageGet_preserves (key : Value) : Preserves I (storageGet f key) :=
  .bind (pureFault_preserves _) fun _ => .bind world_preserves fun _ => .pure _

/-- A report looks at how the action ended. -/
theorem report_leads {P : Running → Prop} {x : Action Running (List Bytes)}
    (hx : Leads P (fun _ => I) I x)
    (check : Except Fault Unit) : Leads P (fun _ => I) I (report x check) := by
  refine hx.attempt.bind fun r => .of_preserves ?_ fun _ h => h
  split
  · exact .pure _
  · exact .bind (pureFault_preserves _) fun _ => .pure _
  · exact .stop _

/-! ### Steps that change something -/

variable (I) in
/-- The property survives what is done to the meter of a frame, and that it is noted. -/
structure Metered : Prop where
  gas : ∀ {α : Type} (x : Action Meter α), Preserves I (onGas x)
  charged : ∀ a, Preserves I (note (.charged a))
  reserved : ∀ a, Preserves I (note (.reserved a))
  refunded : ∀ a, Preserves I (note (.refunded a))

namespace Metered

theorem charge (h : Metered I) (a : Amount) : Preserves I (charge a) :=
  .bind .get fun _ => .bind (h.charged _) fun _ => h.gas _

theorem refund (h : Metered I) (m : Meter) : Preserves I (refund m) := .bind (h.gas _) fun _ => h.refunded _

/-- Of a call that is prepared, only its gas is taken. -/
theorem prepare (h : Metered I) (r : CallRequest) (kind : CallKind) : Preserves I (prepare f r kind) :=
  .bind .get fun _ => .bind (build_preserves _ _ _) fun _ => .bind (gasAmount_preserves _) fun _ =>
    .bind (.bind (h.gas _) fun _ => h.reserved _) fun _ => .pure _

end Metered

variable (asks host launch f I) in
/-- The property survives every step of a program with the given requests that changes something. -/
structure Keeps : Prop where
  payments : ∀ query, Preserves I (onPayments (CallValue.answer query))
  started : Preserves I (note .started)
  charge : ∀ n : Nat, Preserves I (charge n)
  store : ∀ key data, Preserves I (do
    onWorld (Action.modify fun w => w.storageSet f.call.receiver key data)
    note (.stored key))
  log : ∀ l, Preserves I (do
    Action.modify fun s => { s with logs := s.logs ++ [l] }
    note (.logged l))
  send : ∀ {receiver token nonce amount}, asks (.send receiver token nonce amount) →
    ∀ (n : Nonce) {a}, Amount.ofValue? amount = some a →
      Preserves I (onWorld (World.transfer f.call.receiver (.ofValue receiver) token n a))
  call : ∀ mode {r}, asks (.call mode r) → Preserves I (makeCall launch f r mode)
  callAsync : ∀ {r callback arguments}, asks (.callAsync r callback arguments) →
    Preserves I (callAsync host f r callback arguments)

namespace Keeps

theorem send_preserves (h : Keeps I asks host launch f) {receiver token nonce amount}
    (hr : asks (.send receiver token nonce amount)) :
    Preserves I (Frame.send f receiver token nonce amount) := by
  refine .ite (.pure _) (.ite (.bind (.pure _) fun n => ?_) (.bind (pureFault_preserves _) fun n => ?_))
  all_goals
    dsimp only
    split
    · exact h.send hr n ‹_›
    · exact .bind (held_preserves _ _) fun _ => .stop _

theorem answer (h : Keeps I asks host launch f) (r : Request) (hr : asks r) :
    Preserves I (Frame.answer host launch f r) := by
  cases r with
  | gasLeft => exact .bind .get fun _ => .pure _
  | balance address token nonce => exact balance_preserves _ _ _
  | owner address => exact owner_preserves _
  | payment query => exact h.payments query
  | storageGet key => exact storageGet_preserves _
  | storageSet key value =>
    exact .bind (h.charge _) fun _ => .bind (pureFault_preserves _) fun k =>
      .bind (encode_preserves _) fun data => h.store k data
  | send receiver token nonce amount => exact h.send_preserves hr
  | log endpoint topics data =>
    exact .bind (h.charge _) fun _ => .bind (pureFault_preserves _) fun _ =>
      .bind (encodeItems_preserves _) fun _ => .bind (encode_preserves _) fun _ => h.log _
  | call mode r => exact h.call mode hr
  | callAsync r callback arguments => exact h.callAsync hr
  | reenter => exact .stop _

/-- What survives the requests survives the run of an endpoint, as long as it is answered what it may be told. -/
theorem runEndpoint_given (h : Keeps I asks host launch f) {told : (r : Request) → Except Stop r.Answer → Prop}
    (ht : ∀ r s, I s → told r (Frame.answer host launch f r s).1) {e : Endpoint}
    (he : (e.body ⟨f.call, f.asyncResult⟩).AsksGiven told asks) : Preserves I (Frame.runEndpoint host launch f e) := by
  have hrun : Preserves I (do
      note .started
      let v ← run host launch f (e.body ⟨f.call, f.asyncResult⟩)
      Action.ofExcept ((Codec.encodeResults v).mapError fun e => .fault (.unencodable e))) :=
    .bind h.started fun _ => .bind (run_preserves_given h.answer ht _ he) fun _ => .ofExcept _
  unfold Frame.runEndpoint
  split
  · exact .bind (.stop _) fun _ => hrun
  · exact hrun

/-- What survives the requests survives the run of an endpoint. -/
theorem runEndpoint (h : Keeps I asks host launch f) {e : Endpoint}
    (he : ∀ entry, (e.body entry).Asks asks) : Preserves I (Frame.runEndpoint host launch f e) :=
  have hgiven : (e.body ⟨f.call, f.asyncResult⟩).AsksGiven (fun _ _ => True) asks := (he ⟨f.call, f.asyncResult⟩).given
  h.runEndpoint_given (fun _ _ _ => trivial) hgiven

end Keeps

/-! ### Entering a frame -/

/-- A frame costs what its endpoint declares, or else what every frame does. -/
theorem entryCost_of {gas : Amount → Prop} (hnat : ∀ n : Nat, gas n) (hc : host.registry.All (Endpoint.Costs gas))
    {c : Call} {w : World} {e : Option Endpoint} (he : resolve host c w = .ok e) {a : Amount}
    (ha : Amount.ofValue? (entryCost host e) = some a) : gas a := by
  have hframe : ∀ {a : Amount}, Amount.ofValue? (.int host.settings.frameCost) = some a → gas a := by
    rintro _ ⟨⟩
    exact hnat _
  unfold entryCost at ha
  cases e with
  | none => exact hframe ha
  | some e =>
    rw [Option.bind_some] at ha
    cases hcost : e.gasCost with
    | none =>
      rw [hcost] at ha
      exact hframe ha
    | some v =>
      rw [hcost] at ha
      exact of_resolve hc he v hcost a ha

/-- What a frame runs once it is known which endpoint it is for. -/
def runFound (host : Host) (launch : Launch) (f : Frame) : Option Endpoint → Action Running (List Bytes)
  | none => pure []
  | some e => runEndpoint host launch f e

theorem body_eq (host : Host) (launch : Launch) (f : Frame) (movesValue : Bool) :
    body host launch f movesValue = (do
      let e ← Action.ofExcept ((resolve host f.call (← world)).mapError .failure)
      charge (← gasAmount (entryCost host e))
      if movesValue then onWorld (World.moveValue f.call)
      runFound host launch f e) := rfl

/-- What survives the entry cost, the move of the value and the endpoint that is found survives the body. -/
theorem body_apply_preserves {s : Running} (hs : I s)
    (hcharge : ∀ {e w a}, resolve host f.call w = .ok e → Amount.ofValue? (entryCost host e) = some a →
      Preserves I (charge a))
    (hmove : Preserves I (onWorld (World.moveValue f.call)))
    (hend : ∀ {e}, resolve host f.call s.stage.world = .ok (some e) → Preserves I (runEndpoint host launch f e))
    (movesValue : Bool) : I (body host launch f movesValue s).2 := by
  have hrest : Preserves I (do
      let e ← Action.ofExcept ((resolve host f.call s.stage.world).mapError .failure)
      charge (← gasAmount (entryCost host e))
      if movesValue then onWorld (World.moveValue f.call)
      runFound host launch f e) := by
    refine .ofExcept_bind fun e he => gasAmount_bind fun a ha => ?_
    have hfound := Action.mapError_eq_ok.1 he
    have hrun : Preserves I (runFound host launch f e) := by
      cases e with
      | none => exact .pure _
      | some e => exact hend hfound
    exact .bind (hcharge hfound ha) fun _ => .ite (.bind hmove fun _ => hrun) hrun
  exact hrest s hs

/-- What survives the entry cost, the move of the value and the endpoint survives the whole body. -/
theorem body_preserves
    (hcharge : ∀ {e w a}, resolve host f.call w = .ok e → Amount.ofValue? (entryCost host e) = some a →
      Preserves I (charge a))
    (hmove : Preserves I (onWorld (World.moveValue f.call)))
    (hend : ∀ {e w}, resolve host f.call w = .ok (some e) → Preserves I (runEndpoint host launch f e))
    (movesValue : Bool) : Preserves I (body host launch f movesValue) :=
  fun _ hs => body_apply_preserves hs hcharge hmove hend movesValue

end Frame

end TrialLedger
