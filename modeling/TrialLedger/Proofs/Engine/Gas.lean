import TrialLedger.Proofs.Engine.Honest
import TrialLedger.Proofs.Journal

/-! Where gas goes. What a frame was given is, at every moment, what it has left, what its queued
calls hold, what was charged in it and below it, and what was set aside for calls that never run. -/

namespace TrialLedger

/-- All gas that queued calls hold. -/
def heldBy (calls : List AsyncCall) : Int := (calls.map fun a => a.budget.int).sum

@[simp] theorem heldBy_nil : heldBy [] = 0 := rfl

@[simp] theorem heldBy_append (l r : List AsyncCall) : heldBy (l ++ r) = heldBy l + heldBy r := by
  simp [heldBy]

@[simp] theorem heldBy_singleton (a : AsyncCall) : heldBy [a] = a.budget.int := by
  simp [heldBy]

/-- A call that was queued by a frame one level up, on a whole budget. -/
structure AsyncCall.Due (depth deepest : Nat) (a : AsyncCall) : Prop where
  isWhole : a.budget.IsWhole
  depth_eq : a.asyncDepth = depth
  le_deepest : depth ≤ deepest

/-- Gas that is asked for is no number with a point. -/
def Request.AsksWhole : Request → Prop
  | .call _ r | .callAsync r _ _ => r.gas.IsPointless
  | _ => True

/-- An endpoint's own cost is no number with a point. -/
def Endpoint.CostsWhole (e : Endpoint) : Prop := ∀ v, e.gasCost = some v → v.IsPointless

theorem Endpoint.CostsWhole.costs {e : Endpoint} (h : e.CostsWhole) : e.Costs Amount.IsWhole :=
  fun v hv _ ha => (h v hv).isWhole ha

/-- An endpoint's own cost is a whole number that is not below zero, if it is a number at all. -/
def Endpoint.CostsNatural (e : Endpoint) : Prop :=
  ∀ v, e.gasCost = some v → ∀ a, Amount.ofValue? v = some a → ∃ n : Nat, a = .whole n

/-- A frame that has ended accounts for its budget, and its queued calls are due one level down. -/
structure Exit.Settles (deepest : Nat) (f : Frame) (start : Stage) (exit : Exit) : Prop where
  limit : exit.gas.limit = f.budget
  isWhole : exit.gas.remaining.IsWhole
  due : ∀ a ∈ exit.queued, a.Due (f.asyncDepth + 1) deepest
  pending : (Reserves.of exit.stage.journal).pending =
    Reserves.add (heldBy exit.queued) (Reserves.of start.journal).pending
  total : exit.gas.remaining.int + heldBy exit.queued + spent exit.stage.journal =
    f.budget.int + spent start.journal

/-- Frames on whole budgets account for them. -/
def Launch.Settles (deepest : Nat) (launch : Launch) : Prop :=
  ∀ f movesValue stage, f.budget.IsWhole → (launch f movesValue stage).Settles deepest f stage

/-! ### What a frame answers for -/

namespace Running

/-- All gas that a frame answers for. -/
def accounted (s : Running) : Int :=
  s.gas.remaining.int + heldBy s.queued + spent s.stage.journal + (Reserves.of s.stage.journal).loose

/-- Gas moves from one account to another when an event is noted. -/
theorem accounted_noted (s : Running) (e : Event) :
    (s.noted e).accounted + stranded s.stage.journal + (Reserves.of s.stage.journal).loose =
      s.accounted + e.charge + ((Reserves.of s.stage.journal).after e).stranded +
        ((Reserves.of s.stage.journal).after e).loose := by
  simp only [accounted, noted, spent, stranded, charged_cons, Reserves.of_cons]
  omega

theorem accounted_charged (s : Running) (a : Amount) :
    (s.noted (.charged a)).accounted = s.accounted + a.int := by
  have h := s.accounted_noted (.charged a)
  simp only [Event.charge, Reserves.after, stranded] at h
  omega

/-- What is loose when more is set aside is stranded. -/
theorem accounted_reserved (s : Running) (a : Amount) :
    (s.noted (.reserved a)).accounted = s.accounted + a.int := by
  have h := s.accounted_noted (.reserved a)
  simp only [Event.charge, Reserves.after, stranded] at h
  omega

theorem accounted_refunded (s : Running) (a : Amount) :
    (s.noted (.refunded a)).accounted + (Reserves.of s.stage.journal).loose = s.accounted := by
  have h := s.accounted_noted (.refunded a)
  simp only [Event.charge, Reserves.after, stranded] at h
  omega

theorem accounted_queued (s : Running) (a : AsyncCall) :
    (s.noted (.queued a)).accounted + (Reserves.of s.stage.journal).loose = s.accounted := by
  have h := s.accounted_noted (.queued a)
  simp only [Event.charge, Reserves.after, stranded] at h
  omega

theorem accounted_holding (s : Running) (left : Amount) :
    (s.holding left).accounted + s.gas.remaining.int = s.accounted + left.int := by
  simp only [accounted, holding]
  omega

theorem accounted_queuing (s : Running) (l : List AsyncCall) :
    (s.queuing l).accounted = s.accounted + heldBy l := by
  simp only [accounted, queuing, heldBy_append]
  omega

end Running

/-! ### Running frames -/

namespace Frame

open TrialLedger.Action (Preserves Leads)

variable {deepest : Nat} {f : Frame} {start : Stage} {host : Host} {launch : Launch} {s : Running}

/-- A running frame accounts for its budget. -/
structure Balanced (deepest : Nat) (f : Frame) (start : Stage) (s : Running) : Prop where
  limit : s.gas.limit = f.budget
  isWhole : s.gas.remaining.IsWhole
  due : ∀ a ∈ s.queued, a.Due (f.asyncDepth + 1) deepest
  pending : (Reserves.of s.stage.journal).pending = heldBy s.queued :: (Reserves.of start.journal).pending
  total : s.gas.remaining.int + heldBy s.queued + spent s.stage.journal +
    (Reserves.of s.stage.journal).loose = f.budget.int + spent start.journal

/-- The frame has set so much gas aside and not handed it on yet. -/
structure Handing (deepest : Nat) (f : Frame) (start : Stage) (b : Amount) (s : Running) : Prop
    extends Balanced deepest f start s where
  budget_isWhole : b.IsWhole
  loose : (Reserves.of s.stage.journal).loose = b.int

/-! ### Steps -/

theorem Balanced.accounted_eq (h : Balanced deepest f start s) :
    s.accounted = f.budget.int + spent start.journal :=
  h.total

/-- What does not concern gas changes nothing. -/
theorem Balanced.congr {s' : Running} (h : Balanced deepest f start s) (hg : s'.gas = s.gas)
    (hq : s'.queued = s.queued) (hr : Reserves.of s'.stage.journal = Reserves.of s.stage.journal)
    (hc : charged s'.stage.journal = charged s.stage.journal) : Balanced deepest f start s' where
  limit := by rw [hg, h.limit]
  isWhole := by rw [hg]; exact h.isWhole
  due := by rw [hq]; exact h.due
  pending := by rw [hr, hq, h.pending]
  total := by
    have ht := h.total
    unfold spent stranded at *
    rw [hg, hq, hr, hc]
    exact ht

theorem onWorld_balanced {α : Type} (x : Action World α) :
    Preserves (Balanced deepest f start) (onWorld x) :=
  fun _ h => h.congr rfl rfl rfl rfl

theorem charge_balanced {a : Amount} (ha : a.IsWhole) :
    Preserves (Balanced deepest f start) (charge a) := by
  obtain ⟨n, rfl⟩ := ha
  intro s h
  obtain ⟨m, hm⟩ := h.isWhole
  rw [charge_snd hm]
  refine ⟨h.limit, ⟨_, rfl⟩, h.due, h.pending, ?_⟩
  have hheld := (s.noted (.charged (.whole (min m n)))).accounted_holding (.whole (m - min m n))
  have hgas : (s.noted (.charged (.whole (min m n)))).gas.remaining = .whole m := hm
  rw [hgas, s.accounted_charged, h.accounted_eq, Amount.int_whole, Amount.int_whole, Amount.int_whole] at hheld
  change ((s.noted (.charged (.whole (min m n)))).holding (.whole (m - min m n))).accounted = _
  omega

/-- A prepared call has its gas set aside. -/
theorem prepare_leads {r : CallRequest} (hr : r.gas.IsPointless) (kind : CallKind) :
    Leads (Balanced deepest f start) (fun p => Handing deepest f start p.2) (Balanced deepest f start)
      (prepare f r kind) := by
  intro s h
  refine ⟨?_, fun e t he => by rwa [prepare_eq_error he]⟩
  rintro ⟨c, b⟩ t hp
  obtain ⟨m, hm⟩ := h.isWhole
  obtain ⟨-, hb, left, hleft, rfl⟩ := prepare_eq_ok hp
  obtain ⟨n, rfl⟩ := CallRequest.isWhole_of_asked hr h.isWhole hb
  rw [hm, Amount.minus_whole] at hleft
  obtain rfl := Except.ok.inj hleft
  refine ⟨⟨h.limit, ⟨_, rfl⟩, h.due, h.pending, ?_⟩, ⟨_, rfl⟩, rfl⟩
  have hheld := s.accounted_holding (.whole (m - n))
  have hnoted := (s.holding (.whole (m - n))).accounted_reserved (.whole n)
  rw [hm, h.accounted_eq, Amount.int_whole, Amount.int_whole] at hheld
  rw [Amount.int_whole] at hnoted
  change ((s.holding (.whole (m - n))).noted (.reserved (.whole n))).accounted = _
  omega

/-- Gas that was set aside comes back. -/
theorem refund_leads (b : Amount) {Q : Unit → Running → Prop}
    (hQ : ∀ s, Balanced deepest f start s → Q () s) :
    Leads (Handing deepest f start b) Q (Balanced deepest f start) (refund (Meter.full b)) := by
  intro s h
  obtain ⟨m, hm⟩ := h.isWhole
  obtain ⟨n, rfl⟩ := h.budget_isWhole
  refine ⟨fun _ t hr => hQ t ?_, fun e t hr => ?_⟩
  · obtain ⟨left, hleft, rfl⟩ := refund_eq_ok hr
    rw [hm, Meter.full, Amount.plus_whole] at hleft
    obtain rfl := Except.ok.inj hleft
    refine ⟨h.limit, ⟨_, rfl⟩, h.due, h.pending, ?_⟩
    have hheld := s.accounted_holding (.whole (m + n))
    have hnoted := (s.holding (.whole (m + n))).accounted_refunded (.whole n)
    have hloose : (Reserves.of (s.holding (.whole (m + n))).stage.journal).loose = n := h.loose
    rw [hm, h.accounted_eq, Amount.int_whole, Amount.int_whole] at hheld
    change ((s.holding (.whole (m + n))).noted (.refunded (.whole n))).accounted = _
    omega
  · obtain ⟨⟨g, -, hg⟩, -⟩ := refund_eq_error hr
    rw [hm, Meter.full, Amount.plus_whole] at hg
    cases hg

/-- The frame that is back, on whatever calls it has queued then. -/
theorem Handing.returned {b : Amount} {c : Call} {exit : Exit} {m n : Int} (h : Handing deepest f start b s)
    (hsettles : exit.Settles deepest ⟨c, b, f.asyncDepth, none⟩ s.stage)
    (hm : s.gas.remaining = .whole m) (hn : exit.gas.remaining = .whole n) :
    Balanced deepest f start ((returned s exit (.whole (m + n))).queuing exit.queued) := by
  refine ⟨h.limit, ⟨_, rfl⟩, fun a ha => ?_, ?_, ?_⟩
  · exact (List.mem_append.1 ha).elim (h.due a) (hsettles.due a)
  · change (Reserves.of exit.stage.journal).pending = heldBy (s.queued ++ exit.queued) :: _
    rw [hsettles.pending, h.pending, Reserves.add, heldBy_append]
  · have hstage : (s.onStage exit.stage).accounted + n + heldBy exit.queued =
        s.accounted + (Reserves.of exit.stage.journal).loose := by
      have hx := hsettles.total
      have hloose := h.loose
      rw [hn, Amount.int_whole] at hx
      simp only [Running.accounted, Running.onStage] at hx ⊢
      omega
    have hheld := (s.onStage exit.stage).accounted_holding (.whole (m + n))
    have hnoted : (Frame.returned s exit (.whole (m + n))).accounted +
        (Reserves.of exit.stage.journal).loose = _ :=
      ((s.onStage exit.stage).holding (.whole (m + n))).accounted_refunded exit.gas.remaining
    have hqueued := (Frame.returned s exit (.whole (m + n))).accounted_queuing exit.queued
    have hm' : (s.onStage exit.stage).gas.remaining = .whole m := hm
    rw [hm', Amount.int_whole, Amount.int_whole] at hheld
    rw [h.accounted_eq] at hstage
    change ((Frame.returned s exit (.whole (m + n))).queuing exit.queued).accounted = _
    omega

/-- A nested frame gives back what it has left, and its queued calls keep theirs. -/
theorem runChild_leads (hl : launch.Settles deepest) (c : Call) (b : Amount) (movesValue : Bool) :
    Leads (Handing deepest f start b) (fun _ => Balanced deepest f start) (Balanced deepest f start)
      (runChild launch f c b movesValue) := by
  have hend : ∀ s, Handing deepest f start b s → ∀ o t, runChild launch f c b movesValue s = (o, t) →
      Balanced deepest f start t := by
    intro s h o t hx
    have hsettles := hl ⟨c, b, f.asyncDepth, none⟩ movesValue s.stage h.budget_isWhole
    have hcases := runChild_cases hx
    set exit := launch ⟨c, b, f.asyncDepth, none⟩ movesValue s.stage
    obtain ⟨m, hm⟩ := h.isWhole
    obtain ⟨n, hn⟩ := hsettles.isWhole
    have hplus : s.gas.remaining.plus exit.gas.remaining = .ok (.whole (m + n)) := by
      rw [hm, hn, Amount.plus_whole]
    have hback := h.returned hsettles hm hn
    rcases hcases with ⟨g, -, hg, -⟩ | ⟨left, hleft, ⟨done, ho, -, rfl⟩ | ⟨e, ho, -, rfl⟩⟩
    · rw [hplus] at hg
      cases hg
    · obtain rfl := Except.ok.inj (hplus.symm.trans hleft)
      have hq : exit.queued = done.queued := by rw [Exit.queued, ho]
      rw [hq] at hback
      exact hback.congr rfl rfl rfl rfl
    · obtain rfl := Except.ok.inj (hplus.symm.trans hleft)
      have hq : exit.queued = [] := by rw [Exit.queued, ho]
      rw [hq, Running.queuing, List.append_nil] at hback
      exact hback
  exact fun s h => ⟨fun _ _ hx => hend s h _ _ hx, fun _ _ hx => hend s h _ _ hx⟩

theorem keepsCalls_balanced (hl : launch.Settles deepest) {r : CallRequest} (hr : r.gas.IsPointless) :
    KeepsCalls f r launch (Balanced deepest f start) (fun _ => Handing deepest f start) where
  prepare := prepare_leads hr
  move _ _ _ h := ⟨h.congr rfl rfl rfl rfl, h.budget_isWhole, h.loose⟩
  child := runChild_leads hl
  refund _ b := refund_leads b fun _ h => h
  weaken h := h.toBalanced

/-- A queued call keeps the gas that was set aside for it. -/
theorem Handing.queued {a : AsyncCall} (h : Handing host.settings.maxAsyncDepth f start a.budget s)
    (hdepth : a.asyncDepth = f.asyncDepth + 1) (hroom : f.asyncDepth < host.settings.maxAsyncDepth) :
    Balanced host.settings.maxAsyncDepth f start ((s.queuing [a]).noted (.queued a)) := by
  refine ⟨h.limit, h.isWhole, fun a' ha => ?_, ?_, ?_⟩
  · rcases List.mem_append.1 ha with ha | ha
    · exact h.due a' ha
    · obtain rfl := List.mem_singleton.1 ha
      exact ⟨h.budget_isWhole, hdepth, hroom⟩
  · change Reserves.add a.budget.int (Reserves.of s.stage.journal).pending = heldBy (s.queued ++ [a]) :: _
    rw [h.pending, Reserves.add, heldBy_append, heldBy_singleton]
  · have hqueued := s.accounted_queuing [a]
    have hnoted := (s.queuing [a]).accounted_queued a
    have hloose : (Reserves.of (s.queuing [a]).stage.journal).loose = a.budget.int := h.loose
    rw [heldBy_singleton, h.accounted_eq] at hqueued
    change ((s.queuing [a]).noted (.queued a)).accounted = _
    omega

theorem keeps_balanced (hl : launch.Settles host.settings.maxAsyncDepth) :
    Keeps (Balanced host.settings.maxAsyncDepth f start) Request.AsksWhole host launch f where
  payments _ _ h := h.congr rfl rfl rfl rfl
  started _ h := h.congr rfl rfl rfl (charged_idle (e := .started) rfl _)
  charge n := charge_balanced ⟨n, rfl⟩
  store key _ _ h := h.congr rfl rfl rfl (charged_idle (e := .stored key) rfl _)
  log l _ h := h.congr rfl rfl rfl (charged_idle (e := .logged l) rfl _)
  send _ _ _ _ := onWorld_balanced _
  call mode _ hr := (keepsCalls_balanced hl hr).makeCall mode
  callAsync hr := (keepsCalls_balanced hl hr).callAsync _ _ fun _ _ _ hroom _ _ h => h.queued rfl hroom

/-! ### Frames -/

theorem entryCost_isWhole (hc : host.registry.All Endpoint.CostsWhole) {c : Call} {w : World}
    {e : Option Endpoint} (he : resolve host c w = .ok e) {a : Amount}
    (ha : Amount.ofValue? (entryCost host e) = some a) : a.IsWhole :=
  have hcosts : host.registry.All (Endpoint.Costs Amount.IsWhole) := hc.mono fun _ => Endpoint.CostsWhole.costs
  entryCost_of (fun n => ⟨n, rfl⟩) hcosts he ha

theorem body_balanced (hr : host.registry.Asks Request.AsksWhole)
    (hc : host.registry.All Endpoint.CostsWhole)
    (hl : launch.Settles host.settings.maxAsyncDepth) (movesValue : Bool) :
    Preserves (Balanced host.settings.maxAsyncDepth f start) (body host launch f movesValue) :=
  body_preserves (fun he ha => charge_balanced (entryCost_isWhole hc he ha)) (onWorld_balanced _)
    (fun he => (keeps_balanced hl).runEndpoint (of_resolve hr he)) movesValue

theorem entered_balanced (hbudget : f.budget.IsWhole) : Balanced deepest f start (f.entered start) := by
  refine ⟨rfl, hbudget, nofun, rfl, ?_⟩
  simp only [entered, Meter.full, spent, stranded, charged_cons, Event.charge, Reserves.of_cons,
    Reserves.after, heldBy_nil]
  omega

theorem launchBody_settles {body : Frame → Bool → Action Running (List Bytes)}
    (hb : ∀ f movesValue start, Preserves (Balanced deepest f start) (body f movesValue)) :
    (launchBody body).Settles deepest := by
  intro f movesValue stage hbudget
  have h := hb f movesValue stage _ (entered_balanced hbudget)
  rcases hr : body f movesValue (f.entered stage) with ⟨e | data, t⟩
  · rw [launchBody_of_error hr]
    rw [hr] at h
    have ht := h.total
    refine ⟨h.limit, h.isWhole, nofun, ?_, ?_⟩
    · change (Reserves.of t.stage.journal).pending.tail = _
      rw [h.pending]
      cases (Reserves.of stage.journal).pending <;> simp [Reserves.add, Exit.queued]
    · simp only [spent, stranded, charged_cons, Event.charge, Reserves.of_cons, Reserves.after, h.pending,
        List.headD_cons, Exit.queued, heldBy_nil] at ht ⊢
      omega
  · rw [launchBody_of_ok hr]
    rw [hr] at h
    have ht := h.total
    refine ⟨h.limit, h.isWhole, h.due, ?_, ?_⟩
    · change Reserves.add ((Reserves.of t.stage.journal).pending.headD 0)
        (Reserves.of t.stage.journal).pending.tail = _
      rw [h.pending]
      rfl
    · simp only [spent, stranded, charged_cons, Event.charge, Reserves.of_cons, Reserves.after,
        Exit.queued] at ht ⊢
      omega

/-- Every frame accounts for its budget, at any depth. -/
theorem launch_settles (hr : host.registry.Asks Request.AsksWhole)
    (hc : host.registry.All Endpoint.CostsWhole) :
    ∀ room, (Frame.launch host room).Settles host.settings.maxAsyncDepth
  | 0 => launchBody_settles fun _ _ _ => .stop _
  | room + 1 => launchBody_settles fun _ movesValue _ =>
    body_balanced hr hc (launch_settles hr hc room) movesValue

end Frame

end TrialLedger
