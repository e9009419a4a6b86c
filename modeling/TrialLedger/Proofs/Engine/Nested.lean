import TrialLedger.Engine.Basic
import TrialLedger.Proofs.Amount
import TrialLedger.Proofs.Engine.Steps

/-! Nested calls step by step: which call a request comes to, what setting its gas aside does to
the frame that makes it, and what that frame takes over when the callee ends. -/

namespace TrialLedger

/-- The call of a request that the contract behind `caller` makes: it goes from that contract to
the receiver, and pays and runs what the request says. -/
structure CallRequest.Describes (r : CallRequest) (caller : Call) (kind : CallKind) (c : Call) :
    Prop where
  sender : c.sender = caller.receiver
  receiver : r.receiver.asBytes = .ok c.receiver
  native : r.native.asNatural = .ok (c.native : Int)
  transfers : ∃ vs, r.transfers.items = .ok vs ∧ vs.mapM Value.asTransfer = .ok c.transfers
  function : r.function.asText.map Text.plain = .ok c.function
  arguments : ∃ vs, r.arguments.items = .ok vs ∧ Codec.encodeAll vs = .ok c.arguments
  kind_eq : c.kind = kind

theorem Value.asNatural_nonneg {v : Value} {n : Int} (h : v.asNatural = .ok n) : 0 ≤ n := by
  unfold asNatural at h
  cases hv : v.asInteger with
  | error e => rw [hv] at h; cases h
  | ok m =>
    rw [hv] at h
    change (if m < 0 then .error Problem.belowZero else Except.ok m) = .ok n at h
    split at h
    · cases h
    · obtain rfl : m = n := by simpa using h
      omega

theorem Value.IsPointless.eq_of_asNatural {v : Value} (hv : v.IsPointless) {n : Int} {a : Amount}
    (hn : v.asNatural = .ok n) (ha : Amount.ofValue? v = some a) : a = .whole n := by
  have hinteger : v.asInteger = .ok n := by
    unfold asNatural at hn
    cases hv : v.asInteger with
    | error e => rw [hv] at hn; cases hn
    | ok m =>
      rw [hv] at hn
      change (if m < 0 then .error Problem.belowZero else Except.ok m) = .ok n at hn
      split at hn
      · cases hn
      · exact hn
  cases v with
  | float x => exact absurd rfl (hv x)
  | bool b =>
    obtain rfl := Except.ok.inj hinteger
    exact (Option.some.inj ha).symm
  | int m =>
    obtain rfl := Except.ok.inj hinteger
    exact (Option.some.inj ha).symm
  | _ => cases ha

namespace Call.Draft

/-- A draft that is accepted is taken as it is. -/
theorem validate_eq_ok {d : Draft} {c : Call} (h : d.validate = .ok c) :
    c.sender = d.sender ∧ c.receiver = d.receiver ∧ c.native = d.native.toNat ∧
      c.transfers = d.transfers ∧ c.function = d.function ∧ c.arguments = d.arguments ∧
      c.kind = d.kind := by
  unfold validate at h
  split at h
  · split at h
    · cases h
    · split at h
      · cases h
      · cases h
        exact ⟨rfl, rfl, rfl, rfl, rfl, rfl, rfl⟩
  · cases h

end Call.Draft

theorem Call.Draft.gasLimit_of_validate {d : Draft} {c : Call} (h : d.validate = .ok c) :
    c.gasLimit = d.gasLimit.toNat := by
  unfold validate at h
  split at h
  · split at h
    · cases h
    · split at h
      · cases h
      · cases h
        rfl
  · cases h

/-- The gas limit of a requested call is what was asked for. -/
theorem CallRequest.gasLimit_of_call {r : CallRequest} {caller : Call} {vs : List Value} {args : List Bytes}
    {budget : Value} {kind : CallKind} {c : Call} (h : r.call caller vs args budget kind = .ok c) :
    budget.asNatural = .ok (c.gasLimit : Int) := by
  unfold CallRequest.call at h
  split at h
  · rename_i gasLimit _ _ _ _ hgas
    rw [Call.Draft.gasLimit_of_validate h, Int.toNat_of_nonneg (Value.asNatural_nonneg hgas), hgas]
  · cases h

/-- The call that a request comes to has the members of the request. -/
theorem CallRequest.call_eq_ok {r : CallRequest} {caller : Call} {vs : List Value} {args : List Bytes}
    {budget : Value} {kind : CallKind} {c : Call} (h : r.call caller vs args budget kind = .ok c) :
    c.sender = caller.receiver ∧ r.receiver.asBytes = .ok c.receiver ∧
      r.native.asNatural = .ok (c.native : Int) ∧ vs.mapM Value.asTransfer = .ok c.transfers ∧
      r.function.asText.map Text.plain = .ok c.function ∧ c.arguments = args ∧ c.kind = kind := by
  unfold CallRequest.call at h
  split at h
  · rename_i receiver native transfers function gasLimit h₁ h₂ h₃ h₄ _
    obtain ⟨hs, hr, hn, hts, hf, has, hk⟩ := Call.Draft.validate_eq_ok h
    refine ⟨hs, hr ▸ h₁, ?_, hts ▸ h₃, hf ▸ congrArg (Except.map Text.plain) h₄, has, hk⟩
    rw [hn, Int.toNat_of_nonneg (Value.asNatural_nonneg h₂), h₂]
  · cases h

theorem CallRequest.describes_of_call {r : CallRequest} {caller : Call} {vs ws : List Value}
    {args : List Bytes} {budget : Value} {kind : CallKind} {c : Call}
    (ht : r.transfers.items = .ok vs) (ha : r.arguments.items = .ok ws)
    (he : Codec.encodeAll ws = .ok args) (h : r.call caller vs args budget kind = .ok c) :
    r.Describes caller kind c := by
  obtain ⟨hs, hr, hn, hts, hf, has, hk⟩ := r.call_eq_ok h
  exact ⟨hs, hr, hn, ⟨vs, ht, hts⟩, hf, ⟨ws, ha, has ▸ he⟩, hk⟩

/-- The gas that a request asks for when so much is left. -/
def CallRequest.asked (r : CallRequest) (left : Amount) : Value :=
  match r.gas with
  | .nothing => left.value
  | gas => gas

theorem CallRequest.asked_isPointless {r : CallRequest} (hr : r.gas.IsPointless) {left : Amount}
    (hleft : left.IsWhole) : (r.asked left).IsPointless := by
  obtain ⟨m, rfl⟩ := hleft
  intro x hx
  unfold asked at hx
  split at hx
  · cases hx
  · exact hr x hx

/-- What is asked for of a whole amount is whole. -/
theorem CallRequest.isWhole_of_asked {r : CallRequest} (hr : r.gas.IsPointless) {left b : Amount}
    (hleft : left.IsWhole) (hb : Amount.ofValue? (r.asked left) = some b) : b.IsWhole :=
  (asked_isPointless hr hleft).isWhole hb

/-! ### What a frame hands over -/

namespace Exit

/-- What a frame hands to its caller to run later. -/
def queued (exit : Exit) : List AsyncCall :=
  match exit.outcome with
  | .ok done => done.queued
  | .error _ => []

/-- The entries of a frame that its caller takes over. -/
def logs (exit : Exit) : List Log :=
  match exit.outcome with
  | .ok done => done.logs
  | .error _ => []

end Exit

/-! ### Meters -/

namespace Meter

theorem reserve_eq_ok {a : Amount} {m m' n : Meter} (h : reserve (some a) m = (.ok n, m')) :
    m.remaining.lt a = false ∧ n = full a ∧
      ∃ left, m.remaining.minus a = .ok left ∧ m' = { m with remaining := left } := by
  unfold reserve at h
  simp only [Option.getD_some] at h
  split at h
  · cases h
  · rename_i hlt
    obtain ⟨u, t, hw, hn⟩ := Action.bind_eq_ok.1 h
    obtain ⟨rfl, rfl⟩ : full a = n ∧ t = m' := by simpa [Action.pure_apply] using hn
    unfold withdraw at hw
    split at hw
    · rename_i left hl
      cases hw
      exact ⟨by simpa using hlt, rfl, left, hl, rfl⟩
    · cases hw

theorem reserve_eq_error {a : Amount} {m m' : Meter} {e : Stop}
    (h : reserve (some a) m = (.error e, m')) : m' = m := by
  unfold reserve at h
  simp only [Option.getD_some] at h
  split at h
  · cases h
    rfl
  · rcases Action.bind_eq_error.1 h with hw | ⟨u, t, _, hn⟩
    · unfold withdraw at hw
      split at hw
      · cases hw
      · cases hw
        rfl
    · simp [Action.pure_apply] at hn

theorem refund_eq_ok {child m m' : Meter} {u : Unit} (h : refund child m = (.ok u, m')) :
    ∃ left, m.remaining.plus child.remaining = .ok left ∧ m' = { m with remaining := left } := by
  unfold refund at h
  split at h
  · rename_i left hl
    cases h
    exact ⟨left, hl, rfl⟩
  · cases h

theorem refund_eq_error {child m m' : Meter} {e : Stop} (h : refund child m = (.error e, m')) :
    (∃ g, e = .fault g ∧ m.remaining.plus child.remaining = .error g) ∧ m' = m := by
  unfold refund at h
  split at h
  · cases h
  · rename_i g hg
    cases h
    exact ⟨⟨g, rfl, hg⟩, rfl⟩

end Meter

/-! ### Running frames -/

namespace Running

/-- A further event is noted. -/
def noted (s : Running) (e : Event) : Running :=
  { s with stage := { s.stage with journal := e :: s.stage.journal } }

/-- The meter holds a new amount. -/
def holding (s : Running) (left : Amount) : Running := { s with gas := { s.gas with remaining := left } }

/-- The frame queues further calls. -/
def queuing (s : Running) (l : List AsyncCall) : Running := { s with queued := s.queued ++ l }

/-- A nested frame has ended on the stage. -/
def onStage (s : Running) (stage : Stage) : Running := { s with stage := stage }

/-- What a nested frame hands over is taken over. -/
def taking (s : Running) (done : Committed) : Running :=
  { s with logs := s.logs ++ done.logs, queued := s.queued ++ done.queued }

/-- What a frame has brought about and would be undone with it. -/
def effects (s : Running) : World × List Log × List AsyncCall := (s.stage.world, s.logs, s.queued)

end Running

namespace Frame

variable {f : Frame} {r : CallRequest} {kind : CallKind} {s s' : Running}

theorem onGas_eq {α : Type} {x : Action Meter α} {o : Except Stop α} :
    onGas x s = (o, s') ↔ ∃ g, x s.gas = (o, g) ∧ s' = { s with gas := g } := Action.zoom_eq

theorem onWorld_eq {α : Type} {x : Action World α} {o : Except Stop α} :
    onWorld x s = (o, s') ↔
      ∃ w, x s.stage.world = (o, w) ∧ s' = { s with stage := { s.stage with world := w } } := Action.zoom_eq

/-- A charge takes what is charged, or all that is left. -/
theorem charge_snd {m : Int} (hm : s.gas.remaining = .whole m) (n : Int) :
    (charge (.whole n) s).2 = (s.noted (.charged (.whole (min m n)))).holding (.whole (m - min m n)) := by
  have htaken : s.gas.taken (.whole n) = .whole (min m n) := by
    rw [Meter.taken, hm, Amount.lt_whole]
    by_cases h : m < n
    · rw [if_pos (decide_eq_true h), min_eq_left (Int.le_of_lt h)]
    · rw [if_neg (by simpa using h), min_eq_right (Int.not_lt.1 h)]
  have hgas : (Meter.charge (.whole n) s.gas).2 = { s.gas with remaining := .whole (m - min m n) } := by
    simp only [Meter.charge, Meter.withdraw, hm, Amount.lt_whole, Amount.minus_whole, decide_eq_true_eq]
    split
    · rename_i h
      rw [min_eq_left (Int.le_of_lt h), Int.sub_self]
      rfl
    · rename_i h
      rw [min_eq_right (Int.not_lt.1 h)]
  have hcharge : (charge (.whole n) s).2 =
      { s.noted (.charged (s.gas.taken (.whole n))) with gas := (Meter.charge (.whole n) s.gas).2 } := rfl
  rw [hcharge, htaken, hgas]
  rfl

theorem reserve_eq_ok {a : Amount} {u : Unit} (h : reserve a s = (.ok u, s')) :
    s.gas.remaining.lt a = false ∧
      ∃ left, s.gas.remaining.minus a = .ok left ∧ s' = (s.holding left).noted (.reserved a) := by
  obtain ⟨m, t, hm, hn⟩ := Action.bind_eq_ok.1 h
  obtain ⟨g, hg, rfl⟩ := onGas_eq.1 hm
  obtain ⟨hlt, -, left, hl, rfl⟩ := Meter.reserve_eq_ok hg
  cases hn
  exact ⟨hlt, left, hl, rfl⟩

theorem reserve_eq_error {a : Amount} {e : Stop} (h : reserve a s = (.error e, s')) : s' = s := by
  rcases Action.bind_eq_error.1 h with hm | ⟨_, _, _, hn⟩
  · obtain ⟨g, hg, rfl⟩ := onGas_eq.1 hm
    obtain rfl := Meter.reserve_eq_error hg
    rfl
  · cases hn

theorem refund_eq_ok {m : Meter} {u : Unit} (h : refund m s = (.ok u, s')) :
    ∃ left, s.gas.remaining.plus m.remaining = .ok left ∧
      s' = (s.holding left).noted (.refunded m.remaining) := by
  obtain ⟨_, t, hm, hn⟩ := Action.bind_eq_ok.1 h
  obtain ⟨g, hg, rfl⟩ := onGas_eq.1 hm
  obtain ⟨left, hl, rfl⟩ := Meter.refund_eq_ok hg
  cases hn
  exact ⟨left, hl, rfl⟩

theorem refund_eq_error {m : Meter} {e : Stop} (h : refund m s = (.error e, s')) :
    (∃ g, e = .fault g ∧ s.gas.remaining.plus m.remaining = .error g) ∧ s' = s := by
  rcases Action.bind_eq_error.1 h with hm | ⟨_, _, _, hn⟩
  · obtain ⟨g, hg, rfl⟩ := onGas_eq.1 hm
    obtain ⟨he, rfl⟩ := Meter.refund_eq_error hg
    exact ⟨he, rfl⟩
  · cases hn

/-! ### Calls that are prepared -/

theorem build_steps {budget : Value} {c : Call} (h : build f r budget kind s = (.ok c, s')) :
    s' = s ∧ ∃ vs ws args, r.transfers.items = .ok vs ∧ r.arguments.items = .ok ws ∧
      Codec.encodeAll ws = .ok args ∧ r.call f.call vs args budget kind = .ok c := by
  obtain ⟨vs, s₁, h₁, h⟩ := Action.bind_eq_ok.1 h
  obtain ⟨args, s₂, h₂, h⟩ := Action.bind_eq_ok.1 h
  obtain ⟨ws, s₃, h₃, h₄⟩ := Action.bind_eq_ok.1 h₂
  unfold pureFault at h₁ h₃
  unfold encodeAll at h₄
  simp only [Action.ofExcept_apply, Prod.mk.injEq, Action.mapError_eq_ok] at h h₁ h₃ h₄
  obtain ⟨ht, rfl⟩ := h₁
  obtain ⟨ha, rfl⟩ := h₃
  obtain ⟨he, rfl⟩ := h₄
  obtain ⟨hc, rfl⟩ := h
  exact ⟨rfl, vs, ws, args, ht, ha, he, hc⟩

theorem build_eq_ok {budget : Value} {c : Call} (h : build f r budget kind s = (.ok c, s')) :
    s' = s ∧ r.Describes f.call kind c := by
  obtain ⟨hs, vs, ws, args, ht, ha, he, hc⟩ := build_steps h
  exact ⟨hs, CallRequest.describes_of_call ht ha he hc⟩

theorem gasAmount_eq_ok {v : Value} {a : Amount} (h : gasAmount v s = (.ok a, s')) :
    s' = s ∧ Amount.ofValue? v = some a := by
  unfold gasAmount at h
  cases hv : Amount.ofValue? v with
  | some b =>
    rw [hv] at h
    cases h
    exact ⟨rfl, rfl⟩
  | none =>
    rw [hv] at h
    obtain ⟨_, _, _, h⟩ := Action.bind_eq_ok.1 h
    cases h

theorem prepare_apply (f : Frame) (r : CallRequest) (kind : CallKind) (s : Running) :
    prepare f r kind s = (do
      let c ← build f r (r.asked s.gas.remaining) kind
      let amount ← gasAmount (r.asked s.gas.remaining)
      reserve amount
      return (c, amount) : Action Running (Call × Amount)) s := rfl

/-- A call that is prepared has been built, and its gas has been set aside. -/
theorem prepare_steps {c : Call} {b : Amount} (h : prepare f r kind s = (.ok (c, b), s')) :
    build f r (r.asked s.gas.remaining) kind s = (.ok c, s) ∧
      Amount.ofValue? (r.asked s.gas.remaining) = some b ∧ reserve b s = (.ok (), s') := by
  rw [prepare_apply] at h
  obtain ⟨c', s₁, hb, h₁⟩ := Action.bind_eq_ok.1 h
  obtain ⟨b', s₂, hg, h₂⟩ := Action.bind_eq_ok.1 h₁
  obtain ⟨_, s₃, hr, h₃⟩ := Action.bind_eq_ok.1 h₂
  obtain ⟨rfl, -⟩ := build_eq_ok hb
  obtain ⟨rfl, ha⟩ := gasAmount_eq_ok hg
  cases h₃
  exact ⟨hb, ha, hr⟩

/-- A prepared call is the one that was requested, and its gas has come off the caller's meter. -/
theorem prepare_eq_ok {c : Call} {b : Amount} (h : prepare f r kind s = (.ok (c, b), s')) :
    r.Describes f.call kind c ∧ Amount.ofValue? (r.asked s.gas.remaining) = some b ∧
      ∃ left, s.gas.remaining.minus b = .ok left ∧ s' = (s.holding left).noted (.reserved b) := by
  obtain ⟨hb, ha, hr⟩ := prepare_steps h
  exact ⟨(build_eq_ok hb).2, ha, (reserve_eq_ok hr).2⟩

/-- A call that cannot be prepared leaves its caller as it was. -/
theorem prepare_eq_error {e : Stop} (h : prepare f r kind s = (.error e, s')) : s' = s := by
  rw [prepare_apply] at h
  rcases Action.bind_eq_error.1 h with h | ⟨c, s₁, hb, h₁⟩
  · exact (congrArg Prod.snd h).symm.trans (build_preserves (I := (· = s)) _ _ _ s rfl)
  obtain ⟨rfl, -⟩ := build_eq_ok hb
  rcases Action.bind_eq_error.1 h₁ with h₁ | ⟨b, s₂, hg, h₂⟩
  · exact (congrArg Prod.snd h₁).symm.trans (gasAmount_preserves (I := (· = s₁)) _ s₁ rfl)
  obtain ⟨rfl, -⟩ := gasAmount_eq_ok hg
  rcases Action.bind_eq_error.1 h₂ with h₂ | ⟨_, s₃, _, h₃⟩
  · exact reserve_eq_error h₂
  · cases h₃

/-- What follows a call that was prepared has the call that the request describes. -/
theorem prepare_bind {I : Running → Prop} {α : Type} {kind : CallKind} {g : Call × Amount → Action Running α}
    (hp : Action.Preserves I (prepare f r kind))
    (hg : ∀ c b, r.Describes f.call kind c → Action.Preserves I (g (c, b))) :
    Action.Preserves I (prepare f r kind >>= g) := by
  intro s h
  have hs := hp s h
  rcases hr : prepare f r kind s with ⟨e | ⟨c, b⟩, t⟩
  · rw [hr] at hs
    rwa [Action.bind_error hr]
  · rw [hr] at hs
    rw [Action.bind_ok hr]
    exact hg c b (prepare_eq_ok hr).1 t hs

/-! ### Frames -/

/-- What runs in a frame under which so many further ones may be nested. -/
def bodyAt (host : Host) : (room : Nat) → Frame → (movesValue : Bool) → Action Running (List Bytes)
  | 0 => fun _ _ => Action.fail .callDepthExceeded
  | room + 1 => body host (launch host room)

theorem launch_eq (host : Host) : ∀ room, launch host room = launchBody (bodyAt host room)
  | 0 => rfl
  | _ + 1 => rfl

section

variable {run : Frame → Bool → Action Running (List Bytes)} {movesValue : Bool} {stage : Stage}
  {t : Running}

theorem launchBody_of_ok {data : List Bytes} (h : run f movesValue (f.entered stage) = (.ok data, t)) :
    launchBody run f movesValue stage =
      ⟨.ok ⟨data, t.logs, t.queued⟩, t.gas,
        ⟨t.stage.world, stage.stack, .left true t.gas.remaining :: t.stage.journal⟩⟩ := by
  unfold launchBody
  rw [h]

theorem launchBody_of_error {e : Stop} (h : run f movesValue (f.entered stage) = (.error e, t)) :
    launchBody run f movesValue stage =
      ⟨.error e, t.gas, ⟨stage.world, stage.stack, .left false t.gas.remaining :: t.stage.journal⟩⟩ := by
  unfold launchBody
  rw [h]

end

/-! ### Calls that are made -/

variable {launch : Launch} {c : Call} {b : Amount} {movesValue : Bool}

/-- The caller of a nested frame that has run, with so much gas left. -/
def returned (s : Running) (exit : Exit) (left : Amount) : Running :=
  ((s.onStage exit.stage).holding left).noted (.refunded exit.gas.remaining)

theorem runChild_apply (launch : Launch) (f : Frame) (c : Call) (b : Amount) (movesValue : Bool)
    (s : Running) : let exit := launch ⟨c, b, f.asyncDepth, none⟩ movesValue s.stage
    runChild launch f c b movesValue s = (do
      refund exit.gas
      match exit.outcome with
      | .ok done =>
        Action.modify fun s => { s with logs := s.logs ++ done.logs, queued := s.queued ++ done.queued }
        return done.data
      | .error e => Action.stop e : Action Running (List Bytes)) (s.onStage exit.stage) := rfl

/-- A nested frame ends on the stage of its caller and pays back. When it has committed its logs and
queued calls are taken over, and when it has stopped so does the call. -/
theorem runChild_cases {o : Except Stop (List Bytes)}
    (h : runChild launch f c b movesValue s = (o, s')) :
    let exit := launch ⟨c, b, f.asyncDepth, none⟩ movesValue s.stage
    (∃ g, o = .error (.fault g) ∧ s.gas.remaining.plus exit.gas.remaining = .error g ∧
        s' = s.onStage exit.stage) ∨
      ∃ left, s.gas.remaining.plus exit.gas.remaining = .ok left ∧
        ((∃ done, exit.outcome = .ok done ∧ o = .ok done.data ∧ s' = (returned s exit left).taking done) ∨
          ∃ e, exit.outcome = .error e ∧ o = .error e ∧ s' = returned s exit left) := by
  intro exit
  rw [runChild_apply] at h
  rcases hr : refund exit.gas (s.onStage exit.stage) with ⟨e | u, t⟩
  · rw [Action.bind_error hr] at h
    obtain ⟨⟨g, rfl, hg⟩, rfl⟩ := refund_eq_error hr
    cases h
    exact .inl ⟨g, rfl, hg, rfl⟩
  · rw [Action.bind_ok hr] at h
    obtain ⟨left, hleft, rfl⟩ := refund_eq_ok hr
    refine .inr ⟨left, hleft, ?_⟩
    cases ho : exit.outcome with
    | ok done =>
      rw [ho] at h
      cases h
      exact .inl ⟨done, rfl, rfl, rfl⟩
    | error e =>
      rw [ho] at h
      cases h
      exact .inr ⟨e, rfl, rfl, rfl⟩

/-- A report tells how the action ended. -/
theorem report_eq_ok {x : Action Running (List Bytes)} {check : Except Fault Unit} {result : CallResult}
    (h : report x check s = (.ok result, s')) : (∃ data, x s = (.ok data, s') ∧ result = .ok data) ∨
      ∃ e, x s = (.error (.failure e), s') ∧ result = .failed e := by
  obtain ⟨o, t, hx, h⟩ := Action.bind_eq_ok.1 h
  rw [Action.attempt_apply, Prod.mk.injEq] at hx
  obtain ⟨ho, rfl⟩ := hx
  obtain rfl : (x s).1 = o := Except.ok.inj ho
  rcases hr : x s with ⟨(e | e) | data, t⟩
  · rw [hr] at h
    obtain ⟨_, t', hc, h⟩ := Action.bind_eq_ok.1 h
    unfold pureFault at hc
    rw [Action.ofExcept_apply, Prod.mk.injEq] at hc
    obtain ⟨-, rfl⟩ := hc
    cases h
    exact .inr ⟨e, rfl, rfl⟩
  · rw [hr] at h
    cases h
  · rw [hr] at h
    cases h
    exact .inl ⟨data, rfl, rfl⟩

theorem moveAhead_apply (c : Call) (b : Amount) (s : Running) :
    moveAhead c b s = match onWorld (World.moveValue c) s with
      | (.ok (), t) => (.ok (), t)
      | (.error (.failure e), t) => (do
          refund (Meter.full b)
          Action.fail e : Action Running Unit) t
      | (.error (.fault e), t) => (.error (.fault e), t) := by
  unfold moveAhead
  rw [Action.bind_apply, Action.attempt_apply]
  rcases onWorld (World.moveValue c) s with ⟨(e | e) | u, t⟩ <;> rfl

theorem moveAhead_eq_ok {u : Unit} (h : moveAhead c b s = (.ok u, s')) :
    ∃ w, World.moveValue c s.stage.world = (.ok (), w) ∧
      s' = { s with stage := { s.stage with world := w } } := by
  rw [moveAhead_apply] at h
  split at h
  · rename_i t hr
    cases h
    exact onWorld_eq.1 hr
  · obtain ⟨_, _, _, hfail⟩ := Action.bind_eq_ok.1 h
    cases hfail
  · cases h

/-! ### What calls keep -/

section

open TrialLedger.Action (Leads Preserves)

variable {host : Host} {I : Running → Prop} {H : Call → Amount → Running → Prop}

variable (f r launch I H) in
/-- The first property holds before and after a requested call is made. While the gas of the call is set
aside, the second one holds. -/
structure KeepsCalls : Prop where
  prepare : ∀ kind, Leads I (fun p => H p.1 p.2) I (prepare f r kind)
  move : ∀ c b, Preserves (H c b) (onWorld (World.moveValue c))
  child : ∀ c b movesValue, Leads (H c b) (fun _ => I) I (runChild launch f c b movesValue)
  refund : ∀ c b, Leads (H c b) (fun _ => I) I (refund (Meter.full b))
  weaken : ∀ {c b s}, H c b s → I s

namespace KeepsCalls

/-- A payment made ahead leaves the gas of the call aside, or it fails and gives it back. -/
theorem moveAhead (h : KeepsCalls f r launch I H) (c : Call) (b : Amount) :
    Leads (H c b) (fun _ => H c b) I (Frame.moveAhead c b) := by
  have hmove : Leads (H c b) (fun _ => H c b) I (Action.attempt (onWorld (World.moveValue c))) :=
    .of_preserves (.attempt (h.move c b)) fun _ => h.weaken
  refine hmove.bind fun o => ?_
  split
  · exact .pure fun _ h => h
  · exact (h.refund c b).bind fun _ => .stop fun _ h => h
  · exact .stop fun _ => h.weaken

theorem makeCall (h : KeepsCalls f r launch I H) (mode : CallMode) :
    Preserves I (Frame.makeCall launch f r mode) := by
  refine Leads.preserves ?_
  cases mode with
  | propagate => exact (h.prepare _).bind fun p => h.child _ _ _
  | report => exact (h.prepare _).bind fun p => report_leads (h.child _ _ _) _
  | keepValue =>
    refine (h.prepare _).bind fun p => (h.moveAhead _ _).bind fun _ => .ite ?_ ?_
    · exact (h.refund _ _).bind fun _ => .pure fun _ h => h
    · exact report_leads (h.child _ _ _) _

/-- A call that is queued lies one asynchronous level below the frame, and there is such a level. -/
theorem callAsync (h : KeepsCalls f r launch I H) (callback arguments : Value)
    (hqueue : ∀ c b args, f.asyncDepth < host.settings.maxAsyncDepth → c.kind = .async →
      let a : AsyncCall := ⟨c, b, f.asyncDepth + 1, callback, args⟩
      ∀ s, H c b s → I ((s.queuing [a]).noted (.queued a))) :
    Preserves I (Frame.callAsync host f r callback arguments) := by
  unfold Frame.callAsync
  by_cases hd : host.settings.maxAsyncDepth ≤ f.asyncDepth
  · rw [if_pos hd]
    exact fun _ h => h
  · rw [if_neg hd]
    have hprepare : Leads I (fun p s => H p.1 p.2 s ∧ p.1.kind = .async) I (Frame.prepare f r .async) := by
      refine fun s hs => ⟨fun p t hp => ⟨(h.prepare _ s hs).1 p t hp, ?_⟩, (h.prepare _ s hs).2⟩
      exact (prepare_eq_ok hp).1.kind_eq
    refine Leads.preserves (hprepare.bind fun p => ?_)
    have hlook : ∀ {α : Type} {x : Action Running α}, (∀ {J : Running → Prop}, Preserves J x) →
        Leads (fun s => H p.1 p.2 s ∧ p.1.kind = .async) (fun _ s => H p.1 p.2 s ∧ p.1.kind = .async) I x :=
      fun hx => .of_preserves hx fun _ hs => h.weaken hs.1
    refine (hlook (encodeItems_preserves _)).bind fun args => ?_
    let a : AsyncCall := ⟨p.1, p.2, f.asyncDepth + 1, callback, args⟩
    have hqueued : Leads (fun s => H p.1 p.2 s ∧ p.1.kind = .async) (fun _ s => I (s.noted (.queued a))) I
        (Action.modify fun s => { s with queued := s.queued ++ [a] }) :=
      .of_apply (fun _ => rfl) fun s hs => hqueue p.1 p.2 args (Nat.lt_of_not_le hd) hs.2 s hs.1
    have hnoted : Leads (fun s => I (s.noted (.queued a))) (fun _ => I) I (note (.queued a)) :=
      .of_apply (fun _ => rfl) fun _ hs => hs
    exact hqueued.bind fun _ => hnoted.bind fun _ => .of_preserves (pureFault_preserves _) fun _ hs => hs

end KeepsCalls

end

end Frame

/-! ### Transactions -/

/-- A frame of a transaction hands over to it, whether it failed or went through. -/
theorem Drain.runFrame_eq_ok {launch : Launch} {f : Frame} {d d' : Drain} {p : CallResult × Meter}
    (h : runFrame launch f d = (.ok p, d')) : let exit := launch f true d.stage
    p.2 = exit.gas ∧
      d' = { d with stage := exit.stage, logs := d.logs ++ exit.logs, backlog := d.backlog ++ exit.queued } := by
  intro exit
  have hexit : launch f true d.stage = exit := rfl
  unfold runFrame at h
  dsimp only at h
  rw [hexit] at h
  rcases ho : exit.outcome with (e | e) | done
  · have hlogs : exit.logs = [] := by rw [Exit.logs, ho]
    have hqueued : exit.queued = [] := by rw [Exit.queued, ho]
    rw [ho] at h
    cases h
    rw [hlogs, hqueued, List.append_nil, List.append_nil]
    exact ⟨rfl, rfl⟩
  · rw [ho] at h
    cases h
  · have hlogs : exit.logs = done.logs := by rw [Exit.logs, ho]
    have hqueued : exit.queued = done.queued := by rw [Exit.queued, ho]
    rw [ho] at h
    cases h
    rw [hlogs, hqueued]
    exact ⟨rfl, rfl⟩

/-- What is told to a callback is a call of the contract that queued the call. -/
theorem Drain.callbackCall_steps {a : AsyncCall} {result : CallResult} {gas : Amount} {c : Call}
    (h : callbackCall a result gas = .ok c) :
    ∃ arguments, CallRequest.call { receiver := .bytes a.call.sender, function := a.callback } a.call []
      arguments gas.value .asyncCallback = .ok c := by
  unfold callbackCall at h
  cases hp : payload result with
  | error e =>
    rw [hp] at h
    cases h
  | ok told =>
    rw [hp] at h
    exact ⟨_, Action.mapError_eq_ok.1 h⟩

/-- A deferred call step by step: its frame, that of its callback if it names one, the gas that comes
back, and the record. -/
theorem Drain.runAsync_leads_of {launch : Launch} {a : AsyncCall} {P E R : Drain → Prop}
    {Q : CallResult × Meter → Drain → Prop} {T T' : CallResult → Option CallResult × Amount → Drain → Prop}
    (hcall : Action.Leads P Q R (runFrame launch ⟨a.call, a.budget, a.asyncDepth, none⟩))
    (hplain : hasCallback a = false → ∀ p d, Q p d → T p.1 (none, p.2.remaining) d)
    (hcallback : hasCallback a = true → ∀ p c, callbackCall a p.1 p.2.remaining = .ok c →
      Action.Leads (Q p) (fun q => T p.1 (some q.1, q.2.remaining)) R
        (runFrame launch ⟨c, p.2.remaining, a.asyncDepth, some p.1⟩))
    (hstop : ∀ p d, Q p d → R d)
    (hrefund : ∀ result q, Action.Leads (T result q) (fun _ => T' result q) R
      (Action.zoom Drain.meter (fun d m => { d with meter := m }) (Meter.refund (Meter.full q.2))))
    (hrecord : ∀ result q d, T' result q d → E { d with
      records := d.records ++ [⟨a.call.receiver, a.call.function, result, a.callback, q.1⟩] }) :
    Action.Leads P (fun _ => E) R (runAsync launch a) := by
  have hend : ∀ result, ∀ q : Option CallResult × Amount, Action.Leads (T result q) (fun _ => E) R (do
      Action.zoom Drain.meter (fun d m => { d with meter := m }) (Meter.refund (Meter.full q.2))
      Action.modify fun d => { d with
        records := d.records ++ [⟨a.call.receiver, a.call.function, result, a.callback, q.1⟩] }) :=
    fun result q => (hrefund result q).bind fun _ => .of_apply (fun _ => rfl) (hrecord result q)
  refine hcall.bind ?_
  rintro ⟨result, gas⟩
  dsimp only
  by_cases hname : hasCallback a
  · rw [if_pos hname]
    cases hx : callbackCall a result gas.remaining with
    | error e => exact .stop (hstop (result, gas))
    | ok c =>
      have hrun := (hcallback hname (result, gas) c hx).bind fun q =>
        Action.Leads.bind (x := pure (some q.1, q.2.remaining)) (.pure fun _ h => h) (hend result)
      exact hrun
  · rw [if_neg hname]
    have hfirst := hplain (Bool.eq_false_of_not_eq_true hname) (result, gas)
    exact Action.Leads.bind (.pure hfirst) (hend result)

theorem Drain.run_succ_apply (launch : Launch) (rounds : Nat) (d : Drain) :
    run launch (rounds + 1) d =
      (if d.backlog.isEmpty then pure () else do
        runRound launch d.backlog
        run launch rounds : Action Drain Unit) d := rfl

/-- The calls of a round are taken off the backlog and served one after the other. -/
theorem Drain.runRound_leads_of {launch : Launch} {p : AsyncCall → Prop} {I : List AsyncCall → Drain → Prop}
    {H : AsyncCall → List AsyncCall → Drain → Prop} {R : Drain → Prop}
    (htake : ∀ a r d, p a → I (a :: r) d → H a r { d with backlog := d.backlog.drop 1 })
    (hserve : ∀ a r, p a → Action.Leads (H a r) (fun _ => I r) R (runAsync launch a)) {l : List AsyncCall}
    (hl : ∀ a ∈ l, p a) : Action.Leads (I l) (fun _ => I []) R (runRound launch l) := by
  induction l with
  | nil => exact .pure fun _ h => h
  | cons a r ih =>
    obtain ⟨ha, hr⟩ := List.forall_mem_cons.1 hl
    have htaken : Action.Leads (I (a :: r)) (fun _ => H a r) R
        (Action.modify fun d => { d with backlog := d.backlog.drop 1 }) :=
      .of_apply (fun _ => rfl) fun d h => htake a r d ha h
    exact htaken.bind fun _ => (hserve a r ha).bind fun _ => ih hr

/-- Rounds follow each other until nothing is left to do. -/
theorem Drain.run_leads_of {launch : Launch} {I R : Drain → Prop}
    (hround : ∀ l, Action.Leads (fun d => I d ∧ d.backlog = l) (fun _ => I) R (runRound launch l)) (rounds : Nat) :
    Action.Leads I (fun _ => I) R (run launch rounds) := by
  induction rounds with
  | zero => exact .pure fun _ h => h
  | succ rounds ih =>
    intro d h
    rw [run_succ_apply]
    by_cases he : d.backlog.isEmpty
    · rw [if_pos he]
      exact Action.Leads.pure (P := (· = d)) (by rintro _ rfl; exact h) d rfl
    · rw [if_neg he]
      exact ((hround d.backlog).bind fun _ => ih) d ⟨h, rfl⟩

theorem Drain.result_eq_ok {d : Drain} {data : List Bytes} {result : TransactionResult}
    (h : d.result data = .ok result) :
    ∃ used, d.meter.used = .ok used ∧
      result = ⟨.ok, .text "", data, d.logs, d.meter.remaining, used, d.records⟩ := by
  unfold Drain.result at h
  cases hu : d.meter.used with
  | error g =>
    rw [hu] at h
    cases h
  | ok used =>
    rw [hu] at h
    exact ⟨used, rfl, (Except.ok.inj h).symm⟩

namespace Engine

/-- The frame of a transaction's own call. -/
def outer (e : Engine) (c : Call) : Exit :=
  e.launch ⟨c, c.gasLimit, 0, none⟩ true ⟨e.world, e.active, []⟩

/-- A transaction with a result has failed with its own call, or its deferred calls have run. -/
theorem execute_cases {e e' : Engine} {c : Call} {result : TransactionResult}
    (h : execute c e = (.ok result, e')) :
    (∃ f, (e.outer c).outcome = .error (.failure f) ∧ result = .failed f c.gasLimit ∧
        e' = e.after (e.outer c).stage []) ∨
      ∃ done d, (e.outer c).outcome = .ok done ∧ d.result done.data = .ok result ∧
        e' = e.after d.stage d.backlog ∧
        Drain.run e.launch e.host.settings.maxAsyncDepth
          ⟨(e.outer c).stage, done.queued, (e.outer c).gas, done.logs, []⟩ = (.ok (), d) := by
  unfold execute at h
  split at h
  · cases h
  have houter : e.launch ⟨c, c.gasLimit, 0, none⟩ true ⟨e.world, e.active, []⟩ = e.outer c := rfl
  dsimp only at h
  rw [houter] at h
  rcases ho : (e.outer c).outcome with (f | f) | done
  · rw [ho] at h
    cases h
    exact .inl ⟨f, rfl, rfl, rfl⟩
  · rw [ho] at h
    cases h
  · rw [ho] at h
    dsimp only at h
    rcases hd : Drain.run e.launch e.host.settings.maxAsyncDepth
      ⟨(e.outer c).stage, done.queued, (e.outer c).gas, done.logs, []⟩ with ⟨x | u, d⟩
    · rw [hd] at h
      cases h
    · rw [hd] at h
      obtain ⟨hresult, rfl⟩ := Prod.mk.inj h
      exact .inr ⟨done, d, rfl, hresult, rfl, hd⟩

end Engine

end TrialLedger
