import TrialLedger.Proofs.Engine.Parts

/-! What the run of a frame depends on. Of a host nothing matters but its settings and the endpoints that calls
come to, of a launch nothing but the ends of the frames that are nested, and of a program nothing but what it does
with the answers that it is given. So wherever these are the same, frames run alike. -/

namespace TrialLedger

namespace Action

variable {σ α β : Type} {P : σ → Prop}

/-- The actions do the same wherever the property holds. -/
def Matches (P : σ → Prop) (x y : Action σ α) : Prop := ∀ s, P s → x s = y s

namespace Matches

theorem refl (x : Action σ α) : Matches P x x := fun _ _ => rfl

/-- What follows has to match where the first step leads. -/
theorem bind {Q : α → σ → Prop} {R : σ → Prop} {x y : Action σ α} {f g : α → Action σ β} (hx : Matches P x y)
    (hl : Leads P Q R x) (hf : ∀ a, Matches (Q a) (f a) (g a)) : Matches P (x >>= f) (y >>= g) := by
  intro s hs
  rw [bind_apply, bind_apply, ← hx s hs]
  rcases hr : x s with ⟨e | a, t⟩
  · rfl
  · exact hf a t ((hl s hs).1 a t hr)

/-- After a step that matches nothing is left to show when the rest is the same. -/
theorem bind_left {x y : Action σ α} {f : α → Action σ β} (hx : Matches P x y) : Matches P (x >>= f) (y >>= f) :=
  hx.bind (.trivial x) fun _ => .refl _

theorem ofExcept_bind {r : Except Stop α} {f g : α → Action σ β} (hf : ∀ a, r = .ok a → Matches P (f a) (g a)) :
    Matches P (ofExcept r >>= f) (ofExcept r >>= g) := by
  cases r with
  | ok a => exact hf a rfl
  | error e => exact .refl _

theorem ite {c : Prop} [Decidable c] {x y x' y' : Action σ α} (hx : Matches P x x') (hy : Matches P y y') :
    Matches P (if c then x else y) (if c then x' else y') := by
  split
  · exact hx
  · exact hy

theorem attempt {x y : Action σ α} (hx : Matches P x y) : Matches P (attempt x) (attempt y) := by
  intro s hs
  rw [attempt_apply, attempt_apply, hx s hs]

end Matches

end Action

/-- The endpoint is the other one with a program that does the same as long as it is answered what may be told. -/
structure Endpoint.Alike (told : Call → (r : Request) → Except Stop r.Answer → Prop) (e e' : Endpoint) : Prop where
  eq : e' = { e with body := e'.body }
  body : ∀ entry, (e.body entry).Alike (told entry.call) (e'.body entry)

theorem Endpoint.Alike.refl (told : Call → (r : Request) → Except Stop r.Answer → Prop) (e : Endpoint) :
    e.Alike told e := ⟨rfl, fun _ => .refl _⟩

/-- On the second host a call comes to what it comes to on the first one, with endpoints that are alike. -/
structure Host.Alike (told : Call → (r : Request) → Except Stop r.Answer → Prop) (host host' : Host) : Prop where
  settings : host'.settings = host.settings
  error : ∀ {c w x}, Frame.resolve host c w = .error x → Frame.resolve host' c w = .error x
  none : ∀ {c w}, Frame.resolve host c w = .ok none → Frame.resolve host' c w = .ok none
  some : ∀ {c w e}, Frame.resolve host c w = .ok (some e) →
    ∃ e', Frame.resolve host' c w = .ok (some e') ∧ e.Alike told e'

theorem Host.Alike.refl (told : Call → (r : Request) → Except Stop r.Answer → Prop) (host : Host) :
    host.Alike told host := ⟨rfl, id, id, fun {_ _ e} h => ⟨e, h, .refl told e⟩⟩

namespace Frame

open TrialLedger.Action (Leads Matches Preserves)

variable {I : Running → Prop} {H : Call → Amount → Running → Prop} {asks : Request → Prop} {host host' : Host}
  {launch launch' : Launch} {f : Frame} {r : CallRequest} {told : (r : Request) → Except Stop r.Answer → Prop}

/-! ### Nested calls -/

/-- Nested frames that end alike do the same to the frame that nests them. -/
theorem runChild_matches {P : Running → Prop} {c : Call} {b : Amount} {movesValue : Bool}
    (hl : ∀ s, P s → launch ⟨c, b, f.asyncDepth, none⟩ movesValue s.stage =
      launch' ⟨c, b, f.asyncDepth, none⟩ movesValue s.stage) :
    Matches P (runChild launch f c b movesValue) (runChild launch' f c b movesValue) := by
  intro s hs
  have hleft := runChild_apply launch f c b movesValue s
  have hright := runChild_apply launch' f c b movesValue s
  dsimp only at hleft hright
  rw [hleft, hright, hl s hs]

theorem report_matches {P : Running → Prop} {x y : Action Running (List Bytes)} (h : Matches P x y)
    (check : Except Fault Unit) : Matches P (report x check) (report y check) :=
  h.attempt.bind_left

theorem makeCall_matches (h : KeepsCalls f r launch I H)
    (hl : ∀ c b movesValue s, H c b s → launch ⟨c, b, f.asyncDepth, none⟩ movesValue s.stage =
      launch' ⟨c, b, f.asyncDepth, none⟩ movesValue s.stage) (mode : CallMode) :
    Matches I (makeCall launch f r mode) (makeCall launch' f r mode) := by
  have hchild : ∀ c b movesValue,
      Matches (H c b) (runChild launch f c b movesValue) (runChild launch' f c b movesValue) :=
    fun c b movesValue => runChild_matches (hl c b movesValue)
  cases mode with
  | propagate => exact (Matches.refl _).bind (h.prepare _) fun p => hchild _ _ _
  | report => exact (Matches.refl _).bind (h.prepare _) fun p => report_matches (hchild _ _ _) _
  | keepValue =>
    refine (Matches.refl _).bind (h.prepare _) fun p => (Matches.refl _).bind (h.moveAhead _ _) fun _ => .ite ?_ ?_
    · exact .refl _
    · exact report_matches (hchild _ _ _) _

/-! ### Programs and endpoints -/

/-- Only calls look at more than the settings of the host. -/
theorem answer_matches (hs : host'.settings = host.settings)
    (hcall : ∀ {mode r}, asks (.call mode r) → Matches I (makeCall launch f r mode) (makeCall launch' f r mode))
    (r : Request) (hr : asks r) : Matches I (answer host launch f r) (answer host' launch' f r) := by
  obtain ⟨registry, settings⟩ := host
  obtain ⟨registry', settings'⟩ := host'
  obtain rfl : settings' = settings := hs
  cases r with
  | call mode r => exact hcall hr
  | _ => exact .refl _

theorem run_matches (hk : ∀ r, asks r → Preserves I (answer host launch f r))
    (hm : ∀ r, asks r → Matches I (answer host launch f r) (answer host' launch' f r))
    (ht : ∀ r s, I s → told r (answer host launch f r s).1) {p p' : Program Value} (hp : p.AsksGiven told asks)
    (h : p.Alike told p') : Matches I (run host launch f p) (run host' launch' f p') := by
  induction p generalizing p' with
  | done v =>
    obtain rfl := h
    exact .refl _
  | stop e =>
    obtain rfl := h
    exact .refl _
  | ask r next ih =>
    obtain ⟨next', rfl, hnext⟩ := h
    intro s hs
    have htold := ht r s hs
    rw [run_ask, run_ask, ← hm r hp.1 s hs]
    exact ih _ (hp.2 _ htold) (hnext _ htold) _ (hk r hp.1 s hs)

theorem runEndpoint_matches {told : Call → (r : Request) → Except Stop r.Answer → Prop}
    (hk : Keeps I asks host launch f)
    (hm : ∀ r, asks r → Matches I (answer host launch f r) (answer host' launch' f r))
    (ht : ∀ r s, I s → told f.call r (answer host launch f r s).1) {e e' : Endpoint}
    (he : ∀ entry, (e.body entry).AsksGiven (told entry.call) asks) (h : e.Alike told e') :
    Matches I (runEndpoint host launch f e) (runEndpoint host' launch' f e') := by
  have hrun : Matches I (run host launch f (e.body ⟨f.call, f.asyncResult⟩))
      (run host' launch' f (e'.body ⟨f.call, f.asyncResult⟩)) :=
    run_matches hk.answer hm ht (he ⟨f.call, f.asyncResult⟩) (h.body ⟨f.call, f.asyncResult⟩)
  have hstarted : Leads I (fun _ => I) (fun _ => True) (note .started) := .of_preserves hk.started fun _ _ => trivial
  have hrest := (Matches.refl _).bind hstarted fun _ =>
    hrun.bind_left (f := fun v => Action.ofExcept ((Codec.encodeResults v).mapError fun e => .fault (.unencodable e)))
  rw [h.eq]
  exact .ite (.refl (Action.fail .argumentCount)) hrest

theorem entryCost_alike {told : Call → (r : Request) → Except Stop r.Answer → Prop}
    (hh : host.Alike told host') {e e' : Endpoint} (h : e.Alike told e') :
    entryCost host' (some e') = entryCost host (some e) := by
  rw [h.eq, entryCost, entryCost, hh.settings]
  rfl

/-- A body runs as another one does when their endpoints match. -/
theorem body_matches {told : Call → (r : Request) → Except Stop r.Answer → Prop} (hh : host.Alike told host')
    (hcharge : ∀ {e w a}, resolve host f.call w = .ok e → Amount.ofValue? (entryCost host e) = some a →
      Preserves I (charge a))
    (hmove : Preserves I (onWorld (World.moveValue f.call)))
    (hend : ∀ {e e' w}, resolve host f.call w = .ok (some e) → e.Alike told e' →
      Matches I (runEndpoint host launch f e) (runEndpoint host' launch' f e')) (movesValue : Bool) :
    Matches I (body host launch f movesValue) (body host' launch' f movesValue) := by
  intro s hs
  -- from the endpoint on, where its cost is the same and its run matches
  have hrest : ∀ {e e' : Option Endpoint}, resolve host f.call s.stage.world = .ok e →
      entryCost host' e' = entryCost host e →
      Matches I (runFound host launch f e) (runFound host' launch' f e') →
      Matches I (do
        charge (← gasAmount (entryCost host e))
        if movesValue then onWorld (World.moveValue f.call)
        runFound host launch f e) (do
        charge (← gasAmount (entryCost host' e'))
        if movesValue then onWorld (World.moveValue f.call)
        runFound host' launch' f e') := by
    intro e e' he hcost hrun
    rw [hcost]
    have hpaid : ∀ a, Amount.ofValue? (entryCost host e) = some a → Leads I (fun _ => I) (fun _ => True) (charge a) :=
      fun a ha => .of_preserves (hcharge he ha) fun _ _ => trivial
    have hmoved : Leads I (fun _ => I) (fun _ => True) (onWorld (World.moveValue f.call)) :=
      .of_preserves hmove fun _ _ => trivial
    have hafter : Matches I (do
        if movesValue then onWorld (World.moveValue f.call)
        runFound host launch f e) (do
        if movesValue then onWorld (World.moveValue f.call)
        runFound host' launch' f e') :=
      .ite ((Matches.refl _).bind hmoved fun _ => hrun) hrun
    have hamount : Leads I (fun a s => I s ∧ Amount.ofValue? (entryCost host e) = some a) (fun _ => True)
        (gasAmount (entryCost host e)) := by
      refine fun s hs => ⟨fun a t hrun => ?_, fun _ _ _ => trivial⟩
      obtain ⟨rfl, ha⟩ := gasAmount_eq_ok hrun
      exact ⟨hs, ha⟩
    refine (Matches.refl _).bind hamount fun a => (Matches.refl _).bind (.given fun ha => hpaid a ha) fun _ => hafter
  rw [body_eq, body_eq]
  change (Action.ofExcept ((resolve host f.call s.stage.world).mapError .failure) >>= _) s =
    (Action.ofExcept ((resolve host' f.call s.stage.world).mapError .failure) >>= _) s
  rcases hr : resolve host f.call s.stage.world with x | _ | e
  · rw [hh.error hr]
    rfl
  · rw [hh.none hr]
    have hcost : entryCost host' none = entryCost host none := by rw [entryCost, entryCost, hh.settings]
    exact hrest hr hcost (.refl _) s hs
  · obtain ⟨e', hr', he⟩ := hh.some hr
    rw [hr']
    exact hrest hr (entryCost_alike hh he) (hend hr he) s hs

/-- Bodies that match on a frame that is entered make it end alike. -/
theorem launchBody_congr {run run' : Frame → Bool → Action Running (List Bytes)} {movesValue : Bool} {stage : Stage}
    (h : run f movesValue (f.entered stage) = run' f movesValue (f.entered stage)) :
    launchBody run f movesValue stage = launchBody run' f movesValue stage := by
  unfold launchBody
  rw [h]

end Frame

/-! ### Deferred calls -/

namespace Drain

open TrialLedger.Action (Leads Matches)

variable {launch launch' : Launch} {a : AsyncCall} {P R : Drain → Prop} {Q : CallResult × Meter → Drain → Prop}

theorem runFrame_matches {f : Frame} (hl : ∀ d, P d → launch f true d.stage = launch' f true d.stage) :
    Matches P (runFrame launch f) (runFrame launch' f) := by
  intro d hd
  unfold runFrame
  rw [hl d hd]

/-- A deferred call does what its frame and the frame of its callback do. -/
theorem runAsync_matches (hl : ∀ d, P d → launch ⟨a.call, a.budget, a.asyncDepth, none⟩ true d.stage =
      launch' ⟨a.call, a.budget, a.asyncDepth, none⟩ true d.stage)
    (hcall : Leads P Q R (runFrame launch ⟨a.call, a.budget, a.asyncDepth, none⟩))
    (hcallback : ∀ p c d, Q p d → launch ⟨c, p.2.remaining, a.asyncDepth, some p.1⟩ true d.stage =
      launch' ⟨c, p.2.remaining, a.asyncDepth, some p.1⟩ true d.stage) :
    Matches P (runAsync launch a) (runAsync launch' a) := by
  refine (runFrame_matches hl).bind hcall fun p => ?_
  dsimp only
  by_cases hname : hasCallback a
  · rw [if_pos hname, if_pos hname]
    refine .ofExcept_bind fun c _ => ?_
    have hrun : Matches (Q p) (runFrame launch ⟨c, p.2.remaining, a.asyncDepth, some p.1⟩)
        (runFrame launch' ⟨c, p.2.remaining, a.asyncDepth, some p.1⟩) := runFrame_matches (hcallback p c)
    exact hrun.bind_left
  · rw [if_neg hname, if_neg hname]
    exact .refl _

end Drain

end TrialLedger
