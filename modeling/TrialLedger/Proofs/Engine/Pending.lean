import TrialLedger.Proofs.Engine.Gas
import TrialLedger.Proofs.Survivors

/-! Pending effects of frames. At every moment a frame has emitted the entries, and has queued the calls,
that its part of the journal brings; so what it hands over when it ends is what its events bring to
the frame around it. -/

namespace TrialLedger

/-- The second state is reached from the first one by events that bring what has been added to the
frame's entries and queued calls. -/
def Running.Grows (s s' : Running) : Prop :=
  ∃ events logs queued calls, s'.stage.journal = events ++ s.stage.journal ∧ s'.logs = s.logs ++ logs ∧
    s'.queued = s.queued ++ queued ∧ Brings events logs queued calls

/-- The events of a frame that has ended bring what it hands over. -/
def Exit.Tells (f : Frame) (start : Stage) (exit : Exit) : Prop :=
  ∃ events, exit.stage.journal = events ++ start.journal ∧ Brings events exit.logs exit.queued [f.call]

/-- Frames on whole budgets hand over what their events bring. -/
def Launch.Tells (launch : Launch) : Prop :=
  ∀ f movesValue stage, f.budget.IsWhole → (launch f movesValue stage).Tells f stage

/-! ### Running frames -/

namespace Running

variable {s s' s'' : Running}

namespace Grows

/-- What is neither noted nor handed over changes nothing. -/
theorem of_eq (hj : s'.stage.journal = s.stage.journal) (hl : s'.logs = s.logs) (hq : s'.queued = s.queued) :
    s.Grows s' :=
  ⟨[], [], [], [], hj, by rw [hl, List.append_nil], by rw [hq, List.append_nil], .nil⟩

theorem refl (s : Running) : s.Grows s := of_eq rfl rfl rfl

theorem trans (h : s.Grows s') (h' : s'.Grows s'') : s.Grows s'' := by
  obtain ⟨events, logs, queued, calls, hj, hl, hq, hb⟩ := h
  obtain ⟨events', logs', queued', calls', hj', hl', hq', hb'⟩ := h'
  refine ⟨events' ++ events, logs ++ logs', queued ++ queued', calls ++ calls', ?_, ?_, ?_, hb.append hb'⟩
  · rw [hj', hj, List.append_assoc]
  · rw [hl', hl, List.append_assoc]
  · rw [hq', hq, List.append_assoc]

/-- A noted event that is not the beginning or the end of a frame. -/
theorem noted {e : Event} (hf : ∀ fates, e.fatesBefore fates = fates) (hr : ∀ fates, e.root? fates = none)
    (hj : s'.stage.journal = e :: s.stage.journal) (hl : s'.logs = s.logs ++ e.log?.toList)
    (hq : s'.queued = s.queued ++ e.call?.toList) : s.Grows s' :=
  ⟨[e], _, _, [], hj, hl, hq, .single hf hr⟩

/-- A noted event by which nothing is handed over. -/
theorem idle {e : Event} (hf : ∀ fates, e.fatesBefore fates = fates) (hr : ∀ fates, e.root? fates = none)
    (hlog : e.log? = none) (hcall : e.call? = none) (hj : s'.stage.journal = e :: s.stage.journal)
    (hl : s'.logs = s.logs) (hq : s'.queued = s.queued) : s.Grows s' := by
  refine noted hf hr hj ?_ ?_
  · rw [hl, hlog, Option.toList_none, List.append_nil]
  · rw [hq, hcall, Option.toList_none, List.append_nil]

end Grows

end Running

namespace Frame

open TrialLedger.Action (Leads Preserves)

variable {host : Host} {launch : Launch} {deepest : Nat} {f : Frame} {start : Stage} {s s₀ : Running}

/-! ### Steps -/

theorem onWorld_grows {α : Type} (x : Action World α) : Preserves s₀.Grows (onWorld x) :=
  fun _ h => h.trans (.of_eq rfl rfl rfl)

theorem metered_grows : Metered s₀.Grows where
  gas _ _ h := h.trans (.of_eq rfl rfl rfl)
  charged a _ h := h.trans (.idle (e := .charged a) (fun _ => rfl) (fun _ => rfl) rfl rfl rfl rfl rfl)
  reserved a _ h := h.trans (.idle (e := .reserved a) (fun _ => rfl) (fun _ => rfl) rfl rfl rfl rfl rfl)
  refunded a _ h := h.trans (.idle (e := .refunded a) (fun _ => rfl) (fun _ => rfl) rfl rfl rfl rfl rfl)

/-- A caller takes over what the events of the nested frame bring. -/
theorem runChild_grows (hl : launch.Settles deepest) (ht : launch.Tells) {b : Amount}
    (h : Handing deepest f start b s) (c : Call) (movesValue : Bool) :
    s.Grows (runChild launch f c b movesValue s).2 := by
  have hsettles := hl ⟨c, b, f.asyncDepth, none⟩ movesValue s.stage h.budget_isWhole
  obtain ⟨events, hj, hbrings⟩ := ht ⟨c, b, f.asyncDepth, none⟩ movesValue s.stage h.budget_isWhole
  rcases hx : runChild launch f c b movesValue s with ⟨o, s'⟩
  have hcases := runChild_cases hx
  set exit := launch ⟨c, b, f.asyncDepth, none⟩ movesValue s.stage
  -- The rest of the gas has come back, and what the frame hands over has been taken over.
  have hend : ∀ s', s'.stage.journal = .refunded exit.gas.remaining :: exit.stage.journal →
      s'.logs = s.logs ++ exit.logs → s'.queued = s.queued ++ exit.queued → s.Grows s' := by
    intro s' hj' hlogs hqueued
    have htaken : s.Grows ((s.onStage exit.stage).taking ⟨[], exit.logs, exit.queued⟩) :=
      ⟨events, _, _, _, hj, rfl, rfl, hbrings⟩
    exact htaken.trans (.idle (fun _ => rfl) (fun _ => rfl) rfl rfl hj' hlogs hqueued)
  obtain ⟨m, hm⟩ := h.isWhole
  obtain ⟨n, hn⟩ := hsettles.isWhole
  rcases hcases with ⟨g, -, hg, -⟩ | ⟨left, -, ⟨done, ho, -, rfl⟩ | ⟨e, ho, -, rfl⟩⟩
  · rw [hm, hn, Amount.plus_whole] at hg
    cases hg
  · exact hend _ rfl (by rw [Exit.logs, ho]; rfl) (by rw [Exit.queued, ho]; rfl)
  · refine hend _ rfl ?_ ?_
    · rw [Exit.logs, ho]
      exact (List.append_nil _).symm
    · rw [Exit.queued, ho]
      exact (List.append_nil _).symm

/-! ### Endpoints -/

/-- A running frame accounts for its budget, and for what it has added to its entries and queued calls
since the state `s₀`. -/
def Traced (deepest : Nat) (f : Frame) (start : Stage) (s₀ s : Running) : Prop :=
  Balanced deepest f start s ∧ s₀.Grows s

theorem keepsCalls_traced (hl : launch.Settles deepest) (ht : launch.Tells) {r : CallRequest}
    (hr : r.gas.IsPointless) :
    KeepsCalls f r launch (Traced deepest f start s₀)
      (fun _ b s => Handing deepest f start b s ∧ s₀.Grows s) where
  prepare kind := (prepare_leads hr kind).and fun s _ h => metered_grows.prepare r kind s h
  move c b := ((keepsCalls_balanced hl hr).move c b).and (onWorld_grows _)
  child c b movesValue := (runChild_leads hl c b movesValue).and fun _ hs h =>
    h.trans (runChild_grows hl ht hs c movesValue)
  refund c b := ((keepsCalls_balanced hl hr).refund c b).and fun s _ h => metered_grows.refund _ s h
  weaken h := ⟨h.1.toBalanced, h.2⟩

theorem keeps_traced (hl : launch.Settles host.settings.maxAsyncDepth) (ht : launch.Tells) :
    Keeps (Traced host.settings.maxAsyncDepth f start s₀) Request.AsksWhole host launch f where
  payments x := ((keeps_balanced hl).payments x).and fun _ h => h.trans (.of_eq rfl rfl rfl)
  started := (keeps_balanced hl).started.and fun _ h =>
    h.trans (.idle (e := .started) (fun _ => rfl) (fun _ => rfl) rfl rfl rfl rfl rfl)
  charge n := ((keeps_balanced hl).charge n).and (metered_grows.charge _)
  store key data := ((keeps_balanced hl).store key data).and fun _ h =>
    h.trans (.idle (e := .stored key) (fun _ => rfl) (fun _ => rfl) rfl rfl rfl rfl rfl)
  log l := ((keeps_balanced hl).log l).and fun _ h =>
    h.trans (.noted (e := .logged l) (fun _ => rfl) (fun _ => rfl) rfl rfl (List.append_nil _).symm)
  send hr n _ ha := ((keeps_balanced hl).send hr n ha).and (onWorld_grows _)
  call mode _ hr := (keepsCalls_traced hl ht hr).makeCall mode
  callAsync hr := (keepsCalls_traced hl ht hr).callAsync _ _ fun _ _ _ hroom _ _ h =>
    ⟨h.1.queued rfl hroom,
      h.2.trans (.noted (fun _ => rfl) (fun _ => rfl) rfl (List.append_nil _).symm rfl)⟩

/-! ### Frames -/

theorem body_traced (hr : host.registry.Asks Request.AsksWhole)
    (hc : host.registry.All Endpoint.CostsWhole) (hl : launch.Settles host.settings.maxAsyncDepth)
    (ht : launch.Tells) (movesValue : Bool) :
    Preserves (Traced host.settings.maxAsyncDepth f start s₀) (body host launch f movesValue) :=
  body_preserves
    (fun he ha => (charge_balanced (entryCost_isWhole hc he ha)).and (metered_grows.charge _))
    ((onWorld_balanced _).and (onWorld_grows _))
    (fun he => (keeps_traced hl ht).runEndpoint (of_resolve hr he)) movesValue

/-- A frame that was entered on the stage has ended, with what has been added since if it is committed. -/
theorem tells_of_grows {exit : Exit} {committed : Bool} {left : Amount} (h : (f.entered start).Grows s)
    (hj : exit.stage.journal = .left committed left :: s.stage.journal)
    (hl : exit.logs = if committed then s.logs else [])
    (hq : exit.queued = if committed then s.queued else []) : exit.Tells f start := by
  obtain ⟨events, logs, queued, calls, hevents, hlogs, hqueued, hbrings⟩ := h
  have hframe := hbrings.frame f.call f.budget start.stack.length f.asyncDepth committed left
  refine ⟨_, ?_, by rw [hl, hq, hlogs, hqueued]; exact hframe⟩
  rw [hj, hevents, List.cons_append, List.append_assoc]
  rfl

theorem launchBody_tells (deepest : Nat) {body : Frame → Bool → Action Running (List Bytes)}
    (hb : ∀ f movesValue start s₀, Preserves (Traced deepest f start s₀) (body f movesValue)) :
    (launchBody body).Tells := by
  intro f movesValue stage hbudget
  have hgrown := (hb f movesValue stage (f.entered stage) _ ⟨entered_balanced hbudget, .refl _⟩).2
  rcases hr : body f movesValue (f.entered stage) with ⟨e | data, t⟩
  · rw [hr] at hgrown
    rw [launchBody_of_error hr]
    exact tells_of_grows hgrown rfl rfl rfl
  · rw [hr] at hgrown
    rw [launchBody_of_ok hr]
    exact tells_of_grows hgrown rfl rfl rfl

/-- Every frame hands over what its events bring, at any depth. -/
theorem launch_tells (hr : host.registry.Asks Request.AsksWhole)
    (hc : host.registry.All Endpoint.CostsWhole) : ∀ room, (Frame.launch host room).Tells
  | 0 => launchBody_tells host.settings.maxAsyncDepth fun _ _ _ _ => .stop _
  | room + 1 => launchBody_tells _ fun _ movesValue _ _ =>
    body_traced hr hc (launch_settles hr hc room) (launch_tells hr hc room) movesValue

end Frame

end TrialLedger
