import TrialLedger.Proofs.Engine.Nested

/-! How deep the frames of a transaction lie. Read from its end a journal tells which frames are open, and
on what level each of them lies. A nested frame lies below all open ones, on the asynchronous level of
the frame that makes the call; a deferred call is due one asynchronous level below the frame that queues
it. Whatever a frame does, it does within both limits. -/

namespace TrialLedger

/-- Where a frame lies: how many frames were open when it began, and its asynchronous depth. -/
structure Level where
  depth : Nat
  asyncDepth : Nat

namespace Level

/-! ### Open frames -/

def after (l : List Level) : Event → List Level
  | .entered _ _ depth asyncDepth => ⟨depth, asyncDepth⟩ :: l
  | .left .. => l.tail
  | _ => l

/-- The levels of the frames that have not ended, innermost first. -/
def opened (journal : List Event) : List Level := journal.foldr (fun e l => after l e) []

/-- What may happen while frames are open on the given levels. A frame without an outer one may begin on
any asynchronous level that there is, and another one on that of the innermost frame. -/
def Admits (settings : Settings) (l : List Level) : Event → Prop
  | .entered _ _ depth asyncDepth => depth = l.length ∧ asyncDepth ≤ settings.maxAsyncDepth ∧
    ∀ inner ∈ l.head?, asyncDepth = inner.asyncDepth
  | .started => ∃ inner ∈ l.head?, inner.depth ≤ settings.maxCallDepth
  | .queued a => a.asyncDepth ≤ settings.maxAsyncDepth ∧
    ∃ inner ∈ l.head?, a.asyncDepth = inner.asyncDepth + 1
  | _ => True

/-- Every event of the journal was admitted when it happened. -/
def Within (settings : Settings) (journal : List Event) : Prop :=
  ∀ ⦃e past⦄, e :: past <:+ journal → Admits settings (opened past) e

theorem within_nil {settings : Settings} : Within settings [] := fun _ _ h => absurd (List.suffix_nil.1 h) nofun

theorem Within.cons {settings : Settings} {past : List Event} {e : Event} (h : Within settings past)
    (he : Admits settings (opened past) e) : Within settings (e :: past) := by
  intro e' past' hp
  rcases List.suffix_cons_iff.1 hp with heq | hp
  · obtain ⟨rfl, rfl⟩ := List.cons.inj heq
    exact he
  · exact h hp

end Level

open Level (Within Admits opened)

/-- The frames on a stage are those that its journal has open, and all is within the limits. -/
structure Stage.Levelled (settings : Settings) (stage : Stage) : Prop where
  length_eq : (opened stage.journal).length = stage.stack.length
  within : Within settings stage.journal

/-- A call is due one asynchronous level below the given one, and there is such a level. -/
def AsyncCall.DueBelow (settings : Settings) (asyncDepth : Nat) (a : AsyncCall) : Prop :=
  a.asyncDepth = asyncDepth + 1 ∧ a.asyncDepth ≤ settings.maxAsyncDepth

/-- A frame that has begun on a stage and runs. -/
structure Running.Levelled (settings : Settings) (f : Frame) (start : Stage) (s : Running) : Prop where
  stage : s.stage.Levelled settings
  stack_eq : s.stage.stack = f.call :: start.stack
  opened_eq : opened s.stage.journal = ⟨start.stack.length, f.asyncDepth⟩ :: opened start.journal
  queued : ∀ a ∈ s.queued, a.DueBelow settings f.asyncDepth

/-- A frame that has begun on a stage and has ended. -/
structure Exit.Levelled (settings : Settings) (f : Frame) (start : Stage) (exit : Exit) : Prop where
  stage : exit.stage.Levelled settings
  stack_eq : exit.stage.stack = start.stack
  opened_eq : opened exit.stage.journal = opened start.journal
  queued : ∀ a ∈ exit.queued, a.DueBelow settings f.asyncDepth

/-- The frame may begin on the stage. -/
def Frame.Begins (settings : Settings) (f : Frame) (stage : Stage) : Prop :=
  Admits settings (opened stage.journal) (.entered f.call f.budget stage.stack.length f.asyncDepth)

/-- Frames that begin below so many others end within the limits. -/
def Launch.KeepsLevels (settings : Settings) (depth : Nat) (launch : Launch) : Prop :=
  ∀ f movesValue stage, stage.stack.length = depth → stage.Levelled settings → f.Begins settings stage →
    (launch f movesValue stage).Levelled settings f stage

namespace Running.Levelled

variable {settings : Settings} {f : Frame} {start : Stage} {s s' : Running}

theorem congr (h : s.Levelled settings f start) (hj : s'.stage.journal = s.stage.journal)
    (hs : s'.stage.stack = s.stage.stack) (hq : s'.queued = s.queued) : s'.Levelled settings f start :=
  ⟨⟨by rw [hj, hs]; exact h.stage.length_eq, by rw [hj]; exact h.stage.within⟩, hs.trans h.stack_eq,
    by rw [hj]; exact h.opened_eq, by rw [hq]; exact h.queued⟩

/-- An event that opens and closes nothing. -/
theorem noted (h : s.Levelled settings f start) {e : Event} (ho : ∀ l, Level.after l e = l)
    (ha : Admits settings (opened s.stage.journal) e) : (s.noted e).Levelled settings f start := by
  have hopened : opened (s.noted e).stage.journal = opened s.stage.journal := ho _
  exact ⟨⟨by rw [hopened]; exact h.stage.length_eq, h.stage.within.cons ha⟩, h.stack_eq,
    hopened.trans h.opened_eq, h.queued⟩

/-- A frame that a running frame calls may begin. -/
theorem begins (h : s.Levelled settings f start) (hf : f.asyncDepth ≤ settings.maxAsyncDepth) (c : Call)
    (b : Amount) (told : Option CallResult) : Frame.Begins settings ⟨c, b, f.asyncDepth, told⟩ s.stage := by
  refine ⟨h.stage.length_eq.symm, hf, fun inner hinner => ?_⟩
  rw [h.opened_eq] at hinner
  cases hinner
  rfl

end Running.Levelled

namespace Frame

open TrialLedger.Action (Leads Preserves)

variable {host : Host} {launch : Launch} {settings : Settings} {f : Frame} {start : Stage} {s : Running}
  {e : Event}

/-! ### Steps -/

theorem note_levelled (ho : ∀ l, Level.after l e = l) (ha : ∀ l, Admits settings l e) :
    Preserves (Running.Levelled settings f start) (note e) := .modify fun _ h => h.noted ho (ha _)

theorem metered_levelled : Metered (Running.Levelled settings f start) where
  gas _ _ h := h.congr rfl rfl rfl
  charged _ := note_levelled (fun _ => rfl) fun _ => trivial
  reserved _ := note_levelled (fun _ => rfl) fun _ => trivial
  refunded _ := note_levelled (fun _ => rfl) fun _ => trivial

/-! ### Nested calls -/

/-- A nested frame ends on the stage of its caller, which takes over calls of its own level. -/
theorem runChild_levelled (hl : launch.KeepsLevels settings (start.stack.length + 1))
    (hf : f.asyncDepth ≤ settings.maxAsyncDepth) (c : Call) (b : Amount) (movesValue : Bool) :
    Preserves (Running.Levelled settings f start) (runChild launch f c b movesValue) := by
  intro s h
  have hexit := hl ⟨c, b, f.asyncDepth, none⟩ movesValue s.stage (by rw [h.stack_eq]; rfl) h.stage
    (h.begins hf c b none)
  have hcases := runChild_cases (Prod.mk.eta (p := runChild launch f c b movesValue s)).symm
  set exit := launch ⟨c, b, f.asyncDepth, none⟩ movesValue s.stage
  have hstage : (s.onStage exit.stage).Levelled settings f start :=
    ⟨hexit.stage, hexit.stack_eq.trans h.stack_eq, hexit.opened_eq.trans h.opened_eq, h.queued⟩
  have hreturned : ∀ left, (returned s exit left).Levelled settings f start := fun left =>
    have hheld : ((s.onStage exit.stage).holding left).Levelled settings f start := hstage.congr rfl rfl rfl
    hheld.noted (e := .refunded exit.gas.remaining) (fun _ => rfl) trivial
  rcases hcases with ⟨g, -, -, hs⟩ | ⟨left, -, ⟨done, ho, -, hs⟩ | ⟨e, -, -, hs⟩⟩
  · rw [hs]
    exact hstage
  · rw [hs]
    refine ⟨(hreturned left).stage, (hreturned left).stack_eq, (hreturned left).opened_eq, fun a ha => ?_⟩
    rcases List.mem_append.1 ha with ha | ha
    · exact h.queued a ha
    · exact hexit.queued a (by rwa [Exit.queued, ho])
  · rw [hs]
    exact hreturned left

theorem keepsCalls_levelled (hl : launch.KeepsLevels settings (start.stack.length + 1))
    (hf : f.asyncDepth ≤ settings.maxAsyncDepth) (r : CallRequest) :
    KeepsCalls f r launch (Running.Levelled settings f start) (fun _ _ => Running.Levelled settings f start) where
  prepare kind := .of_preserves (metered_levelled.prepare r kind) fun _ h => h
  move _ _ _ h := h.congr rfl rfl rfl
  child c b movesValue := .of_preserves (runChild_levelled hl hf c b movesValue) fun _ h => h
  refund _ b := .of_preserves (metered_levelled.refund (Meter.full b)) fun _ h => h
  weaken h := h

/-- A call that is queued is due one level below its frame. -/
theorem queued_levelled (h : s.Levelled settings f start) {a : AsyncCall}
    (ha : a.DueBelow settings f.asyncDepth) : ((s.queuing [a]).noted (.queued a)).Levelled settings f start := by
  have hqueuing : (s.queuing [a]).Levelled settings f start := by
    refine ⟨h.stage, h.stack_eq, h.opened_eq, fun a' ha' => ?_⟩
    rcases List.mem_append.1 ha' with ha' | ha'
    · exact h.queued a' ha'
    · obtain rfl := List.mem_singleton.1 ha'
      exact ha
  refine hqueuing.noted (e := .queued a) (fun _ => rfl) ?_
  rw [hqueuing.opened_eq]
  exact ⟨ha.2, _, rfl, ha.1⟩

/-! ### Frames -/

theorem keeps_levelled (hl : launch.KeepsLevels host.settings (start.stack.length + 1))
    (hf : f.asyncDepth ≤ host.settings.maxAsyncDepth) (hd : start.stack.length ≤ host.settings.maxCallDepth) :
    Keeps (Running.Levelled host.settings f start) (fun _ => True) host launch f where
  payments _ _ h := h.congr rfl rfl rfl
  started := .modify fun s h => h.noted (fun _ => rfl) ⟨_, by rw [h.opened_eq]; rfl, hd⟩
  charge _ := metered_levelled.charge _
  store _ _ := .bind (fun _ h => h.congr rfl rfl rfl) fun _ => note_levelled (fun _ => rfl) fun _ => trivial
  log _ := .bind (.modify fun _ h => h.congr rfl rfl rfl) fun _ =>
    note_levelled (fun _ => rfl) fun _ => trivial
  send _ _ _ _ := fun _ h => h.congr rfl rfl rfl
  call mode _ _ := (keepsCalls_levelled hl hf _).makeCall mode
  callAsync _ := (keepsCalls_levelled hl hf _).callAsync _ _ fun c b args hroom _ _ h =>
    queued_levelled h ⟨rfl, hroom⟩

theorem entered_levelled (hs : start.Levelled settings) (hb : f.Begins settings start) :
    (f.entered start).Levelled settings f start :=
  ⟨⟨congrArg Nat.succ hs.length_eq, hs.within.cons hb⟩, rfl, rfl, nofun⟩

theorem launchBody_keepsLevels {depth : Nat} {body : Frame → Bool → Action Running (List Bytes)}
    (hb : ∀ f movesValue start, start.stack.length = depth → f.asyncDepth ≤ settings.maxAsyncDepth →
      Preserves (Running.Levelled settings f start) (body f movesValue)) :
    (launchBody body).KeepsLevels settings depth := by
  intro f movesValue start hd hs hbegins
  have h := hb f movesValue start hd hbegins.2.1 _ (entered_levelled hs hbegins)
  -- The end of the frame closes what its begin has opened.
  have hclosed : ∀ {t : Running}, t.Levelled settings f start → ∀ committed,
      let stage : Stage := ⟨t.stage.world, start.stack, .left committed t.gas.remaining :: t.stage.journal⟩
      opened stage.journal = opened start.journal ∧ Within settings stage.journal := by
    intro t ht committed
    refine ⟨?_, ht.stage.within.cons trivial⟩
    change (opened t.stage.journal).tail = _
    rw [ht.opened_eq]
    rfl
  rcases hr : body f movesValue (f.entered start) with ⟨e | data, t⟩
  · rw [launchBody_of_error hr]
    rw [hr] at h
    obtain ⟨hopened, hwithin⟩ := hclosed h false
    exact ⟨⟨(congrArg _ hopened).trans hs.length_eq, hwithin⟩, rfl, hopened, nofun⟩
  · rw [launchBody_of_ok hr]
    rw [hr] at h
    obtain ⟨hopened, hwithin⟩ := hclosed h true
    exact ⟨⟨(congrArg _ hopened).trans hs.length_eq, hwithin⟩, rfl, hopened, h.queued⟩

/-- The room that is left for frames and the frames that are open make up what there is in all. -/
theorem launch_keepsLevels (host : Host) (room : Nat) {depth : Nat}
    (hd : depth + room = host.settings.maxCallDepth + 1) :
    (Frame.launch host room).KeepsLevels host.settings depth := by
  induction room generalizing depth with
  | zero => exact launchBody_keepsLevels fun _ _ _ _ _ => .stop _
  | succ room ih =>
    refine launchBody_keepsLevels fun f movesValue start hstart hf => ?_
    have hl : (Frame.launch host room).KeepsLevels host.settings (start.stack.length + 1) := ih (by omega)
    exact body_preserves (fun _ _ => metered_levelled.charge _) (fun _ h => h.congr rfl rfl rfl)
      (fun _ => (keeps_levelled hl hf (by omega)).runEndpoint fun _ => Program.asks_true _) movesValue

end Frame

end TrialLedger
