import TrialLedger.Engine.Basic
import TrialLedger.Proofs.Engine.Nested

/-! Stable properties of worlds. Frames change the world in three ways: they move what a call
pays, they send amounts from their own account, and they write to its storage. A property that
all three keep holds after every frame, whatever it nests and however it ends, after the deferred
calls, and after every series of transactions and queries. -/

namespace TrialLedger

/-- The property survives every change that programs with the given requests can cause. -/
structure World.Stable (asks : Request → Prop) (J : World → Prop) : Prop where
  move : ∀ c, Action.Preserves J (moveValue c)
  transfer : ∀ {receiver token nonce amount}, asks (.send receiver token nonce amount) →
    ∀ sender (n : Nonce) {a}, Amount.ofValue? amount = some a →
      Action.Preserves J (World.transfer sender (.ofValue receiver) token n a)
  store : ∀ {w} address key value, J w → J (w.storageSet address key value)

/-- The property holds of the world that a frame leaves when it holds of the one it finds. -/
def Launch.Keeps (J : World → Prop) (launch : Launch) : Prop :=
  ∀ f movesValue stage, J stage.world → J (launch f movesValue stage).stage.world

namespace Frame

open TrialLedger.Action (Preserves)

variable {J : World → Prop} {asks : Request → Prop} {host : Host} {launch : Launch} {f : Frame}

/-- The property, of the world of a running frame. -/
abbrev Holds (J : World → Prop) (s : Running) : Prop := J s.stage.world

/-! ### Steps -/

theorem note_holds (e : Event) : Preserves (Holds J) (note e) := .modify fun _ h => h

theorem metered_holds : Metered (Holds J) :=
  ⟨fun _ _ h => h, fun _ => note_holds _, fun _ => note_holds _, fun _ => note_holds _⟩

theorem onWorld_holds {α : Type} {x : Action World α} (hx : Preserves J x) :
    Preserves (Holds J) (onWorld x) :=
  .zoom fun _ h => hx _ h

/-! ### Nested calls -/

theorem runChild_holds (hl : launch.Keeps J) (c : Call) (budget : Amount) (movesValue : Bool) :
    Preserves (Holds J) (runChild launch f c budget movesValue) := by
  intro s hs
  refine Preserves.bind (I := Holds J) (metered_holds.refund _) (fun _ => ?_) _ (hl _ movesValue s.stage hs)
  split
  · exact .bind (.modify fun _ h => h) fun _ => .pure _
  · exact .stop _

theorem keepsCalls_holds (hs : World.Stable asks J) (hl : launch.Keeps J) (r : CallRequest) :
    KeepsCalls f r launch (Holds J) (fun _ _ => Holds J) where
  prepare kind := .of_preserves (metered_holds.prepare r kind) fun _ h => h
  move c _ := onWorld_holds (hs.move c)
  child c b movesValue := .of_preserves (runChild_holds hl c b movesValue) fun _ h => h
  refund _ b := .of_preserves (metered_holds.refund (Meter.full b)) fun _ h => h
  weaken h := h

theorem keeps_holds (hs : World.Stable asks J) (hl : launch.Keeps J) :
    Keeps (Holds J) asks host launch f where
  payments _ _ h := h
  started := note_holds _
  charge _ := metered_holds.charge _
  store _ _ := .bind (onWorld_holds (.modify fun _ h => hs.store _ _ _ h)) fun _ => note_holds _
  log _ := .bind (.modify fun _ h => h) fun _ => note_holds _
  send hr n _ ha := onWorld_holds (hs.transfer hr _ n ha)
  call mode r _ := (keepsCalls_holds hs hl r).makeCall mode
  callAsync _ := (keepsCalls_holds hs hl _).callAsync _ _ fun _ _ _ _ _ _ h => h

/-! ### Frames -/

theorem launchBody_keeps {body : Frame → Bool → Action Running (List Bytes)}
    (hb : ∀ f movesValue, Preserves (Holds J) (body f movesValue)) : (launchBody body).Keeps J := by
  intro f movesValue stage h
  have ht := hb f movesValue (f.entered stage) h
  unfold launchBody
  rcases hr : body f movesValue (f.entered stage) with ⟨_ | _, s⟩
  · exact h
  · simpa [hr] using ht

theorem body_holds (hs : World.Stable asks J) (hr : host.registry.Asks asks) (hl : launch.Keeps J)
    (movesValue : Bool) : Preserves (Holds J) (body host launch f movesValue) :=
  body_preserves (fun _ _ => metered_holds.charge _) (onWorld_holds (hs.move _))
    (fun he => (keeps_holds hs hl).runEndpoint (of_resolve hr he)) movesValue

/-- What every step keeps, every frame keeps, at any depth. -/
theorem launch_keeps (hs : World.Stable asks J) (hr : host.registry.Asks asks) :
    ∀ room, (Frame.launch host room).Keeps J
  | 0 => launchBody_keeps fun _ _ => .stop _
  | room + 1 => launchBody_keeps fun _ movesValue => body_holds hs hr (launch_keeps hs hr room) movesValue

end Frame

/-- The property holds of the stage that a frame leaves when it holds of the one it finds. -/
def Launch.KeepsStage (K : Stage → Prop) (launch : Launch) : Prop :=
  ∀ f movesValue stage, K stage → K (launch f movesValue stage).stage

namespace Drain

open TrialLedger.Action (Preserves)

variable {K : Stage → Prop} {launch : Launch}

theorem runFrame_keeps (hl : launch.KeepsStage K) (f : Frame) :
    Preserves (fun d : Drain => K d.stage) (runFrame launch f) := by
  intro d hd
  have h := hl f true d.stage hd
  unfold runFrame
  dsimp only
  split <;> exact h

theorem runAsync_keeps (hl : launch.KeepsStage K) (a : AsyncCall) :
    Preserves (fun d : Drain => K d.stage) (runAsync launch a) :=
  Action.Leads.preserves <| runAsync_leads_of (.of_preserves (runFrame_keeps hl _) fun _ h => h)
    (fun _ _ _ h => h) (fun _ _ _ _ => .of_preserves (runFrame_keeps hl _) fun _ h => h) (fun _ _ h => h)
    (fun _ _ => .of_preserves (.zoom fun _ h => h) fun _ h => h) fun _ _ _ h => h

theorem runRound_keeps (hl : launch.KeepsStage K) : ∀ l, Preserves (fun d => K d.stage) (runRound launch l)
  | [] => .pure _
  | a :: r => .bind (.modify fun _ h => h) fun _ => .bind (runAsync_keeps hl a) fun _ =>
    runRound_keeps hl r

theorem run_keeps (hl : launch.KeepsStage K) : ∀ rounds, Preserves (fun d => K d.stage) (run launch rounds)
  | 0 => .pure _
  | rounds + 1 => .bind .get fun _ => .ite (.pure _) <|
    .bind (runRound_keeps hl _) fun _ => run_keeps hl rounds

end Drain

namespace Engine

variable {J : World → Prop} {asks : Request → Prop} {e : Engine}

/-- Where the engine is when its last transaction has ended. -/
def stage (e : Engine) : Stage := ⟨e.world, e.active, e.journal⟩

/-- What all frames keep of the stage, a transaction keeps that starts on it, also one that fails or breaks off. -/
theorem execute_stage {K : Stage → Prop} (hl : e.launch.KeepsStage K) (hidle : e.active = []) (c : Call)
    (h : K ⟨e.world, [], []⟩) : K (execute c e).2.stage := by
  rw [← hidle] at h
  have hx := hl ⟨c, c.gasLimit, 0, none⟩ true ⟨e.world, e.active, []⟩ h
  unfold execute
  rw [if_neg (by simp [hidle])]
  dsimp only
  split
  · exact hx
  · exact hx
  · exact Drain.run_keeps hl _ _ hx

/-- What every step keeps, a transaction keeps, also one that fails or breaks off. -/
theorem execute_keeps (hs : World.Stable asks J) (hr : e.host.registry.Asks asks) (c : Call)
    (h : J e.world) : J (execute c e).2.world := by
  by_cases hidle : e.active = []
  · have hl := Frame.launch_keeps hs hr e.room
    exact execute_stage (K := fun stage => J stage.world) hl hidle c h
  · unfold execute
    rw [if_pos (by simp [hidle])]
    exact h

/-- What a user of an engine may ask it to do. -/
inductive Operation where
  | execute (c : Call)
  | query (c : Call)

/-- The engine after an operation, whatever its result. -/
def perform (e : Engine) : Operation → Engine
  | .execute c => (execute c e).2
  | .query c => (query c e).2

theorem perform_host (e : Engine) (o : Operation) : (e.perform o).host = e.host := by
  have hx : ∀ c, (execute c e).2.host = e.host := by
    intro c
    unfold execute
    split
    · rfl
    · dsimp only
      split <;> rfl
  cases o with
  | execute c => exact hx c
  | query c => exact hx c

theorem perform_keeps (hs : World.Stable asks J) (hr : e.host.registry.Asks asks) (o : Operation)
    (h : J e.world) : J (e.perform o).world := by
  cases o with
  | execute c => exact execute_keeps hs hr c h
  | query c => exact h

/-- What every step keeps, every series of operations keeps. -/
theorem foldl_perform_keeps (hs : World.Stable asks J) (os : List Operation)
    (hr : e.host.registry.Asks asks) (h : J e.world) : J (os.foldl perform e).world := by
  induction os generalizing e with
  | nil => exact h
  | cons o os ih => exact ih (by rwa [perform_host]) (perform_keeps hs hr o h)

end Engine

end TrialLedger
