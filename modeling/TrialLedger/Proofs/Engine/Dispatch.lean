import TrialLedger.Proofs.Engine.Explained

/-! Which endpoints run. A frame runs an endpoint of its own call, and endpoints of callbacks answer to callback
calls alone. The frames that are nested in it are for calls of other kinds, and so are the calls that it queues,
which go out from the contract of the frame that queues them. -/

namespace TrialLedger

open Visit (after opened)

namespace Frame

variable {host : Host} {c : Call} {w : World}

/-- Code runs in the frame of a call. -/
def HasEndpoint (host : Host) (w : World) (c : Call) : Prop :=
  ∃ endpoint, resolve host c w = .ok (some endpoint)

/-- Callbacks run for callback calls, and nothing else does. -/
theorem isCallback_of_resolve {e : Endpoint} (h : resolve host c w = .ok (some e)) :
    e.isCallback = decide (c.kind = .asyncCallback) := by
  unfold resolve at h
  split at h
  · cases h
  split at h
  · cases h
  split at h
  · cases h
  split at h
  · cases h
  split at h
  · rename_i heq
    obtain rfl := Option.some.inj (Except.ok.inj h)
    exact heq
  · cases h

end Frame

open TrialLedger.Frame (HasEndpoint)

/-! ### What the journal tells -/

/-- The innermost open frame is one in which code runs. It is for the given call and lies on the given frames, or
it is nested in such a frame and is for no callback. -/
def Dispatched (host : Host) (w : World) (c : Call) (base l : List Visit) : Prop :=
  ∃ v outer, l = v :: outer ++ base ∧ HasEndpoint host w v.call ∧
    (outer = [] ∧ v.call = c ∨ outer ≠ [] ∧ v.call.kind ≠ .asyncCallback)

/-- A call was queued by a frame of the contract that it goes out from. -/
structure Issued (host : Host) (w : World) (journal : List Event) (a : AsyncCall) : Prop where
  kind_eq : a.call.kind = .async
  issuer : ∃ past v outer, .queued a :: past <:+ journal ∧ opened past = v :: outer ∧
    v.call.receiver = a.call.sender ∧ HasEndpoint host w v.call

theorem Issued.mono {host : Host} {w : World} {journal journal' : List Event} {a : AsyncCall}
    (h : Issued host w journal a) (hj : journal <:+ journal') : Issued host w journal' a := by
  obtain ⟨hkind, past, v, outer, hpast, hrest⟩ := h
  exact ⟨hkind, past, v, outer, hpast.trans hj, hrest⟩

/-- An event of a journal belongs to its earlier part or comes after it. -/
theorem suffix_cases {past journal journal' : List Event} {e : Event} (hpast : e :: past <:+ journal')
    (hj : journal <:+ journal') : e :: past <:+ journal ∨ journal <:+ past := by
  rcases List.suffix_or_suffix_of_suffix hpast hj with hp | hp
  · exact .inl hp
  rcases List.suffix_cons_iff.1 hp with rfl | hp
  · exact .inl (List.suffix_refl _)
  · exact .inr hp

/-- All code that has begun to run since the frame of a call has begun. -/
def Dispatches (host : Host) (w : World) (c : Call) (start journal : List Event) : Prop :=
  ∀ past, .started :: past <:+ journal → start <:+ past → Dispatched host w c (opened start) (opened past)

namespace Dispatches

variable {host : Host} {w : World} {c c' : Call} {start journal journal' : List Event}

theorem refl (host : Host) (w : World) (c : Call) (start : List Event) : Dispatches host w c start start := by
  intro past hpast hstart
  have hlt := hpast.length_le.trans hstart.length_le
  exact absurd hlt (Nat.not_succ_le_self _)

theorem cons (h : Dispatches host w c start journal) {e : Event}
    (he : e = .started → Dispatched host w c (opened start) (opened journal)) :
    Dispatches host w c start (e :: journal) := by
  intro past hpast hstart
  rcases List.suffix_cons_iff.1 hpast with heq | hpast
  · obtain ⟨rfl, rfl⟩ := List.cons.inj heq
    exact he rfl
  · exact h past hpast hstart

/-- A nested frame that has begun and ended. -/
theorem nested (h : Dispatches host w c start journal) (h' : Dispatches host w c' journal journal') {v : Visit}
    (hv : opened journal = v :: opened start) (hc : c'.kind ≠ .asyncCallback) (hj : journal <:+ journal') :
    Dispatches host w c start journal' := by
  intro past hpast hstart
  rcases suffix_cases hpast hj with hp | hp
  · exact h past hp hstart
  obtain ⟨v', outer, hopened, hendpoint, hkind⟩ := h' past hpast hp
  refine ⟨v', outer ++ [v], ?_, hendpoint, .inr ⟨List.append_ne_nil_of_right_ne_nil _ (List.cons_ne_nil _ _), ?_⟩⟩
  · rw [hopened, hv, List.append_cons, List.cons_append]
  · rcases hkind with ⟨-, rfl⟩ | ⟨-, hkind⟩
    · exact hc
    · exact hkind

end Dispatches

/-- What has happened since the frame of a call has begun: the code that runs, and the calls that are queued. -/
structure Traffic (host : Host) (w : World) (c : Call) (start journal : List Event) (queued : List AsyncCall) :
    Prop where
  started : Dispatches host w c start journal
  queued : ∀ a ∈ queued, Issued host w journal a

namespace Traffic

variable {host : Host} {w : World} {c c' : Call} {start journal journal' : List Event} {queued queued' : List AsyncCall}

theorem cons (h : Traffic host w c start journal queued) {e : Event}
    (he : e = .started → Dispatched host w c (opened start) (opened journal)) :
    Traffic host w c start (e :: journal) queued :=
  ⟨h.started.cons he, fun a ha => (h.queued a ha).mono (List.suffix_cons _ _)⟩

/-- A nested frame that has begun and ended. -/
theorem nested (h : Traffic host w c start journal queued) (h' : Traffic host w c' journal journal' queued') {v : Visit}
    (hv : opened journal = v :: opened start) (hc : c'.kind ≠ .asyncCallback) (hj : journal <:+ journal') :
    Traffic host w c start journal' (queued ++ queued') := by
  refine ⟨h.started.nested h'.started hv hc hj, fun a ha => ?_⟩
  rcases List.mem_append.1 ha with ha | ha
  · exact (h.queued a ha).mono hj
  · exact h'.queued a ha

end Traffic

/-- In a frame that finds all explained, the journal tells which code has run. -/
def Launch.Dispatches (host : Host) (w : World) (launch : Launch) : Prop :=
  ∀ f movesValue stage, Explained host w stage.world stage.journal →
    let exit := launch f movesValue stage
    Traffic host w f.call stage.journal exit.stage.journal exit.queued

/-! ### Frames -/

namespace Frame

open TrialLedger.Action (Preserves)

variable {host : Host} {launch : Launch} {w : World} {f : Frame} {c : Call} {start : List Event} {v : Visit}
  {r : CallRequest}

/-! #### Steps -/

/-- What has happened since a frame has begun that still runs. -/
abbrev Trafficking (host : Host) (w : World) (c : Call) (start : List Event) (s : Running) : Prop :=
  Traffic host w c start s.stage.journal s.queued

theorem note_traffic {e : Event} (he : e ≠ .started) : Preserves (Trafficking host w c start) (note e) :=
  .modify fun _ h => h.cons fun heq => absurd heq he

theorem metered_traffic : Metered (Trafficking host w c start) :=
  ⟨fun _ _ h => h, fun _ => note_traffic nofun, fun _ => note_traffic nofun, fun _ => note_traffic nofun⟩

theorem onWorld_traffic {α : Type} (x : Action World α) : Preserves (Trafficking host w c start) (onWorld x) :=
  fun _ h => h

/-- All is explained, and the journal tells of all traffic. -/
abbrev Telling (host : Host) (w : World) (start : List Event) (v : Visit) (s : Running) : Prop :=
  Explaining host w start v s ∧ Trafficking host w v.call start s

theorem moveValue_telling (c : Call) : Preserves (Telling host w start v) (onWorld (World.moveValue c)) :=
  (moveValue_explaining c).and (onWorld_traffic _)

theorem metered_telling : Metered (Telling host w start v) where
  gas x := (metered_explaining.gas x).and (metered_traffic.gas x)
  charged a := (metered_explaining.charged a).and (metered_traffic.charged a)
  reserved a := (metered_explaining.reserved a).and (metered_traffic.reserved a)
  refunded a := (metered_explaining.refunded a).and (metered_traffic.refunded a)

/-! #### Nested calls -/

/-- A nested frame is for no callback. -/
theorem runChild_telling (hx : launch.Explains host w) (hl : launch.Dispatches host w) (b : Amount)
    (movesValue : Bool) (hc : c.kind ≠ .asyncCallback) :
    Preserves (Telling host w start v) (runChild launch f c b movesValue) := by
  intro s ⟨h, ht⟩
  refine ⟨runChild_explaining hx c b movesValue s h, ?_⟩
  have hcases := runChild_cases (Prod.mk.eta (p := runChild launch f c b movesValue s)).symm
  obtain ⟨-, events, hj, -⟩ := (hx ⟨c, b, f.asyncDepth, none⟩ movesValue s.stage h.explained).1
  have hexit := hl ⟨c, b, f.asyncDepth, none⟩ movesValue s.stage h.explained
  set exit := launch ⟨c, b, f.asyncDepth, none⟩ movesValue s.stage
  have hall := ht.nested hexit h.since.opened_eq hc ⟨events, hj.symm⟩
  have hkept : Traffic host w v.call start exit.stage.journal s.queued :=
    ⟨hall.started, fun a ha => hall.queued a (List.mem_append_left _ ha)⟩
  rcases hcases with ⟨g, -, -, hs⟩ | ⟨left, -, ⟨done, ho, -, hs⟩ | ⟨e, -, -, hs⟩⟩
  · rw [hs]
    exact hkept
  · rw [hs]
    have hdone : exit.queued = done.queued := by rw [Exit.queued, ho]
    rw [hdone] at hall
    exact hall.cons fun h => by cases h
  · rw [hs]
    exact hkept.cons fun h => by cases h

theorem report_telling {x : Action Running (List Bytes)} (hx : Preserves (Telling host w start v) x)
    (check : Except Fault Unit) : Preserves (Telling host w start v) (report x check) :=
  Action.Leads.preserves (report_leads (.of_preserves hx fun _ h => h) check)

theorem makeCall_telling (hx : launch.Explains host w) (hl : launch.Dispatches host w) (mode : CallMode) :
    Preserves (Telling host w start v) (makeCall launch f r mode) := by
  have hchild : ∀ (c : Call) b movesValue, c.kind ≠ .asyncCallback →
      Preserves (Telling host w start v) (runChild launch f c b movesValue) :=
    fun _ b movesValue hc => runChild_telling hx hl b movesValue hc
  cases mode with
  | propagate =>
    refine prepare_bind (metered_telling.prepare _ .sync) fun c b hc => hchild c b true ?_
    rw [hc.kind_eq]
    nofun
  | report =>
    refine prepare_bind (metered_telling.prepare _ .sync) fun c b hc => report_telling (hchild c b true ?_) _
    rw [hc.kind_eq]
    nofun
  | keepValue =>
    refine prepare_bind (metered_telling.prepare _ .transferExecute) fun c b hc => .bind ?_ fun _ => .ite ?_ ?_
    · refine .bind (.attempt (moveValue_telling c)) fun o => ?_
      split
      · exact .pure _
      · exact .bind (metered_telling.refund _) fun _ => .stop _
      · exact .stop _
    · exact .bind (metered_telling.refund _) fun _ => .pure _
    · refine report_telling (hchild c b false ?_) _
      rw [hc.kind_eq]
      nofun

theorem callAsync_telling (hruns : HasEndpoint host w f.call) (callback arguments : Value) :
    Preserves (Telling host w start ⟨f.call, true⟩) (callAsync host f r callback arguments) := by
  unfold callAsync
  by_cases hd : host.settings.maxAsyncDepth ≤ f.asyncDepth
  · rw [if_pos hd]
    exact fun _ h => h
  rw [if_neg hd]
  refine prepare_bind (metered_telling.prepare _ .async) fun c b hc => ?_
  refine .bind (encodeItems_preserves _) fun args => ?_
  intro s ⟨h, ht⟩
  let a : AsyncCall := ⟨c, b, f.asyncDepth + 1, callback, args⟩
  have hnoted : Explaining host w start ⟨f.call, true⟩ ((s.queuing [a]).noted (.queued a)) :=
    note_explaining (fun _ => rfl) (fun _ => rfl) (s.queuing [a]) h
  have hissued : Issued host w (.queued a :: s.stage.journal) a :=
    ⟨hc.kind_eq, s.stage.journal, ⟨f.call, true⟩, opened start, List.suffix_refl _, h.since.opened_eq,
      hc.sender.symm, hruns⟩
  have hqueued : Telling host w start ⟨f.call, true⟩ ((s.queuing [a]).noted (.queued a)) := by
    refine ⟨hnoted, (ht.started.cons nofun), fun a' ha' => ?_⟩
    rcases List.mem_append.1 ha' with ha' | ha'
    · exact (ht.queued a' ha').mono (List.suffix_cons _ _)
    · rw [List.mem_singleton.1 ha']
      exact hissued
  exact pureFault_preserves r.checkReceiver _ hqueued

/-! #### Endpoints -/

/-- The code that begins to run is that of the frame. -/
theorem started_telling (hruns : HasEndpoint host w f.call) {b : Bool} {s : Running}
    (h : Telling host w start ⟨f.call, b⟩ s) : Telling host w start ⟨f.call, true⟩ (s.noted .started) :=
  ⟨started_explaining h.1, h.2.cons fun _ => ⟨_, [], h.1.since.opened_eq, hruns, .inl ⟨rfl, rfl⟩⟩⟩

theorem keeps_telling (hx : launch.Explains host w) (hl : launch.Dispatches host w)
    (hruns : HasEndpoint host w f.call) :
    Keeps (Telling host w start ⟨f.call, true⟩) (fun _ => True) host launch f where
  payments _ _ h := h
  started := .modify fun _ h => started_telling hruns h
  charge _ := metered_telling.charge _
  store key data := (store_explaining hruns key data).and
    (.bind (onWorld_traffic _) fun _ => note_traffic nofun)
  log _ := .and (.bind (.modify fun _ h => h) fun _ => note_explaining (fun _ => rfl) fun _ => rfl)
    (.bind (.modify fun _ h => h) fun _ => note_traffic nofun)
  send _ _ _ _ := .and (onWorld_explaining fun _ => Explained.transfer _ _ _ _ _) (onWorld_traffic _)
  call mode _ _ := makeCall_telling hx hl mode
  callAsync _ := callAsync_telling hruns _ _

/-- Whether or not the code begins to run, the journal tells of all traffic. -/
theorem runEndpoint_telling (hx : launch.Explains host w) (hl : launch.Dispatches host w)
    (hruns : HasEndpoint host w f.call) (e : Endpoint) :
    Preserves (fun s => ∃ b, Telling host w start ⟨f.call, b⟩ s) (runEndpoint host launch f e) := by
  have hrun : Preserves (Telling host w start ⟨f.call, true⟩) (do
      let v ← run host launch f (e.body ⟨f.call, f.asyncResult⟩)
      Action.ofExcept ((Codec.encodeResults v).mapError fun e => .fault (.unencodable e))) :=
    .bind (run_preserves (keeps_telling hx hl hruns).answer _ (Program.asks_true _)) fun _ => .ofExcept _
  rintro s ⟨b, h⟩
  unfold runEndpoint
  split
  · exact ⟨b, h⟩
  · exact ⟨true, hrun (s.noted .started) (started_telling hruns h)⟩

theorem body_telling (hx : launch.Explains host w) (hl : launch.Dispatches host w) (movesValue : Bool) :
    Preserves (fun s => ∃ b, Telling host w start ⟨f.call, b⟩ s) (body host launch f movesValue) := by
  have hany : ∀ {α : Type} {x : Action Running α}, (∀ b, Preserves (Telling host w start ⟨f.call, b⟩) x) →
      Preserves (fun s => ∃ b, Telling host w start ⟨f.call, b⟩ s) x := fun hx s ⟨b, h⟩ => ⟨b, hx b s h⟩
  rintro s ⟨b, h⟩
  refine body_apply_preserves (I := fun s => ∃ b, Telling host w start ⟨f.call, b⟩ s) ⟨b, h⟩
    (fun _ _ => hany fun _ => metered_telling.charge _) (hany fun _ => moveValue_telling _) (fun he => ?_) movesValue
  rw [h.1.explained.accounts.resolve_eq] at he
  exact runEndpoint_telling hx hl ⟨_, he⟩ _

/-! #### Ends of frames -/

theorem launchBody_dispatches {run : Frame → Bool → Action Running (List Bytes)}
    (hb : ∀ f movesValue start, Preserves (fun s => ∃ b, Telling host w start ⟨f.call, b⟩ s) (run f movesValue)) :
    (launchBody run).Dispatches host w := by
  intro f movesValue stage h
  have hentered : Telling host w stage.journal ⟨f.call, false⟩ (f.entered stage) :=
    ⟨entered_explaining h, (Dispatches.refl host w f.call _).cons nofun, nofun⟩
  obtain ⟨b, -, hend⟩ := hb f movesValue stage.journal (f.entered stage) ⟨false, hentered⟩
  rcases hr : run f movesValue (f.entered stage) with ⟨e | data, t⟩
  · rw [hr] at hend
    rw [launchBody_of_error hr]
    exact ⟨hend.started.cons nofun, nofun⟩
  · rw [hr] at hend
    rw [launchBody_of_ok hr]
    exact hend.cons nofun

/-- In every frame the journal tells which code has run and who has queued calls. -/
theorem launch_dispatches (host : Host) (w : World) : ∀ room, (Frame.launch host room).Dispatches host w
  | 0 => launchBody_dispatches fun _ _ _ => .stop _
  | room + 1 => launchBody_dispatches fun _ movesValue _ =>
    body_telling (launch_explains host w room) (launch_dispatches host w room) movesValue

end Frame

end TrialLedger
