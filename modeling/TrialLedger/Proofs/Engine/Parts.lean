import TrialLedger.Proofs.Engine.Nested

/-! Properties that survive a change of any one part of a running frame. Every step of a frame changes
its parts one after the other, so such a property goes through all of them. -/

namespace TrialLedger

namespace Frame

open TrialLedger.Action (Preserves)

/-- The property survives whatever is put in the place of a part, and the end of a nested frame. -/
structure Withstands (I : Running → Prop) (launch : Launch) : Prop where
  gas : ∀ {s} g, I s → I { s with gas := g }
  payments : ∀ {s} query, I s → I { s with payments := (CallValue.answer query s.payments).2 }
  pending : ∀ {s} logs queued, I s → I { s with logs := logs, queued := queued }
  world : ∀ {s} w, I s → I { s with stage := { s.stage with world := w } }
  noted : ∀ {s} e, I s → I (s.noted e)
  nested : ∀ {s} g movesValue, I s → I (s.onStage (launch g movesValue s.stage).stage)

namespace Withstands

variable {I : Running → Prop} {host : Host} {launch : Launch} {f : Frame}

theorem note (h : Withstands I launch) (e : Event) : Preserves I (note e) := .modify fun _ hs => h.noted e hs

theorem metered (h : Withstands I launch) : Metered I where
  gas _ _ hs := h.gas _ hs
  charged _ := h.note _
  reserved _ := h.note _
  refunded _ := h.note _

theorem onWorld (h : Withstands I launch) {α : Type} (x : Action World α) : Preserves I (onWorld x) :=
  fun _ hs => h.world _ hs

theorem runChild (h : Withstands I launch) (c : Call) (b : Amount) (movesValue : Bool) :
    Preserves I (runChild launch f c b movesValue) := by
  intro s hs
  refine Preserves.bind (h.metered.refund _) (fun _ => ?_) (s.onStage _) (h.nested _ movesValue hs)
  split
  · exact .bind (.modify fun _ hs => h.pending _ _ hs) fun _ => .pure _
  · exact .stop _

theorem keepsCalls (h : Withstands I launch) (r : CallRequest) : KeepsCalls f r launch I (fun _ _ => I) where
  prepare kind := .of_preserves (h.metered.prepare r kind) fun _ hs => hs
  move _ _ := h.onWorld _
  child c b movesValue := .of_preserves (h.runChild c b movesValue) fun _ hs => hs
  refund _ b := .of_preserves (h.metered.refund (Meter.full b)) fun _ hs => hs
  weaken hs := hs

theorem keeps (h : Withstands I launch) : Keeps I (fun _ => True) host launch f where
  payments query _ hs := h.payments query hs
  started := h.note _
  charge _ := h.metered.charge _
  store _ _ := .bind (h.onWorld _) fun _ => h.note _
  log _ := .bind (.modify fun _ hs => h.pending _ _ hs) fun _ => h.note _
  send _ _ _ _ := h.onWorld _
  call mode _ _ := (h.keepsCalls _).makeCall mode
  callAsync _ := (h.keepsCalls _).callAsync _ _ fun _ _ _ _ _ _ hs => h.noted _ (h.pending _ _ hs)

/-- What withstands all changes survives every request. -/
theorem answer (h : Withstands I launch) (r : Request) : Preserves I (answer host launch f r) :=
  h.keeps.answer r trivial

theorem runEndpoint (h : Withstands I launch) (e : Endpoint) : Preserves I (runEndpoint host launch f e) :=
  h.keeps.runEndpoint fun _ => Program.asks_true _

theorem body (h : Withstands I launch) (movesValue : Bool) : Preserves I (body host launch f movesValue) :=
  body_preserves (fun _ _ => h.metered.charge _) (h.onWorld _) (fun _ => h.runEndpoint _) movesValue

end Withstands

end Frame

end TrialLedger
