import TrialLedger.Proofs.Books
import TrialLedger.Proofs.Engine.Gas

/-! Frames keep the books. While a frame runs its meter and its queued calls are what the books say of the innermost
frame, and the frames around it stay as they were; when it ends its caller finds what is left set aside. -/

namespace TrialLedger

/-! ### Budgets -/

/-- A queued call that waits to run on its whole gas limit. -/
structure AsyncCall.IsSet (a : AsyncCall) : Prop where
  budget_eq : a.budget = .whole a.call.gasLimit
  kind_eq : a.call.kind = .async

/-- What queued calls hold, one by one. -/
def budgets (calls : List AsyncCall) : List Int := calls.map fun a => a.budget.int

@[simp] theorem budgets_append (l r : List AsyncCall) : budgets (l ++ r) = budgets l ++ budgets r :=
  List.map_append

namespace Books

/-! ### The innermost frame -/

variable {t : Books} {m aside : Int} {q : List Int}

theorem within_shift (n : Int) : (t.within ⟨m, q⟩ aside).shift n = t.within ⟨m + n, q⟩ aside := rfl

theorem within_take (l : List Int) : (t.within ⟨m, q⟩ aside).take l = t.within ⟨m, q ++ l⟩ aside := rfl

theorem within_setAside (n : Int) : (t.within ⟨m, q⟩ aside).setAside n = t.within ⟨m, q⟩ n := rfl

theorem within_settle (c : Call) : (t.within ⟨m, q⟩ aside).settle c = t.within ⟨m, q⟩ aside := rfl

theorem within_close (committed : Bool) (left : Int) :
    (t.within ⟨m, q⟩ aside).close committed left = (t.setAside left).take (if committed then q else []) := by
  cases committed with
  | true => rfl
  | false => exact ((t.setAside left).take_nil).symm

end Books

open TrialLedger.Action (Preserves Leads)

/-- A frame that has ended left the books as they were when it was about to begin, but for its gas, which is
aside, and its queued calls, which are handed over. -/
structure Exit.KeepsBooks (limit : Nat) (f : Frame) (start : Stage) (exit : Exit) : Prop where
  limit_eq : exit.gas.limit = f.budget
  isWhole : exit.gas.remaining.IsWhole
  queued : ∀ a ∈ exit.queued, a.IsSet
  fits : Books.Fits limit exit.stage.journal
  books : Books.of limit exit.stage.journal =
    (((Books.of limit start.journal).settle f.call).setAside exit.gas.remaining.int).take (budgets exit.queued)

/-- Frames keep the books when their budgets are set aside. -/
def Launch.KeepsBooks (limit : Nat) (launch : Launch) : Prop :=
  ∀ f movesValue stage, Books.Fits limit stage.journal →
    (Books.of limit stage.journal).Affords (.entered f.call f.budget stage.stack.length f.asyncDepth) →
      (launch f movesValue stage).KeepsBooks limit f stage

namespace Frame

variable {limit : Nat} {f : Frame} {start : Stage} {aside : Int} {host : Host} {launch : Launch} {s : Running}

/-- A running frame is the innermost one of the books, and so much is set aside. -/
structure Booked (limit : Nat) (f : Frame) (start : Stage) (aside : Int) (s : Running) : Prop where
  limit_eq : s.gas.limit = f.budget
  isWhole : s.gas.remaining.IsWhole
  queued : ∀ a ∈ s.queued, a.IsSet
  fits : Books.Fits limit s.stage.journal
  books : Books.of limit s.stage.journal =
    ((Books.of limit start.journal).settle f.call).within ⟨s.gas.remaining.int, budgets s.queued⟩ aside

/-- The books are kept, whatever is set aside. -/
def Keeping (limit : Nat) (f : Frame) (start : Stage) (s : Running) : Prop := ∃ aside, Booked limit f start aside s

/-- The whole gas limit of a call is set aside. -/
structure Ready (limit : Nat) (f : Frame) (start : Stage) (c : Call) (b : Amount) (s : Running) : Prop
    extends Booked limit f start c.gasLimit s where
  budget_eq : b = .whole c.gasLimit

theorem Ready.keeping {c : Call} {b : Amount} (h : Ready limit f start c b s) : Keeping limit f start s :=
  ⟨_, h.toBooked⟩

/-! ### Steps -/

/-- What does not concern gas changes nothing. -/
theorem Booked.congr {s' : Running} (h : Booked limit f start aside s) (hg : s'.gas = s.gas)
    (hq : s'.queued = s.queued) (hj : s'.stage.journal = s.stage.journal) : Booked limit f start aside s' := by
  refine ⟨?_, ?_, ?_, ?_, ?_⟩
  · rw [hg, h.limit_eq]
  · rw [hg]
    exact h.isWhole
  · rw [hq]
    exact h.queued
  · rw [hj]
    exact h.fits
  · rw [hj, hg, hq]
    exact h.books

theorem onWorld_keeping {α : Type} (x : Action World α) : Preserves (Keeping limit f start) (onWorld x) :=
  fun _ h => h.imp fun _ h => h.congr rfl rfl rfl

/-- What is noted beside gas leaves the books as they are. -/
theorem note_keeping {e : Event} (he : ∀ t : Books, t.Affords e) (hafter : ∀ t : Books, t.after e = t) :
    Preserves (Keeping limit f start) (note e) :=
  fun _ h => h.imp fun _ h =>
    ⟨h.limit_eq, h.isWhole, h.queued, ⟨h.fits, he _⟩, (hafter _).trans h.books⟩

theorem Booked.meter_nonneg (h : Booked limit f start aside s) : 0 ≤ s.gas.remaining.int := by
  have hframes := h.fits.solvent.frames
  rw [h.books] at hframes
  exact (hframes _ List.mem_cons_self).1

theorem charge_keeping (n : Nat) : Preserves (Keeping limit f start) (charge (.whole n)) := by
  rintro s ⟨aside, h⟩
  obtain ⟨m, hm⟩ := h.isWhole
  have hpos := h.meter_nonneg
  have hbooks := h.books
  rw [hm, Amount.int_whole] at hpos hbooks
  have hmin : 0 ≤ min m (n : Int) := le_min hpos (Int.natCast_nonneg n)
  rw [charge_snd hm]
  refine ⟨aside, h.limit_eq, ⟨_, rfl⟩, h.queued, ⟨h.fits, ?_⟩, ?_⟩
  · rw [hbooks]
    exact ⟨_, _, _, rfl, rfl, hmin, min_le_left m n⟩
  · change (Books.of limit s.stage.journal).shift _ = _
    rw [hbooks, Books.within_shift]
    rfl

/-- A prepared call has its whole gas limit set aside. -/
theorem prepare_ready {r : CallRequest} (hr : r.gas.IsPointless) (kind : CallKind) :
    Leads (Keeping limit f start) (fun p => Ready limit f start p.1 p.2) (Keeping limit f start)
      (prepare f r kind) := by
  rintro s ⟨aside, h⟩
  refine ⟨?_, fun e t he => ?_⟩
  · rintro ⟨c, b⟩ t hp
    obtain ⟨hbuild, hb, hreserve⟩ := prepare_steps hp
    obtain ⟨-, _, _, _, -, -, -, hcall⟩ := build_steps hbuild
    obtain rfl := (CallRequest.asked_isPointless hr h.isWhole).eq_of_asNatural (CallRequest.gasLimit_of_call hcall) hb
    obtain ⟨hlt, left, hleft, rfl⟩ := reserve_eq_ok hreserve
    obtain ⟨m, hm⟩ := h.isWhole
    have hbooks := h.books
    rw [hm, Amount.lt_whole, decide_eq_false_iff_not, Int.not_lt] at hlt
    rw [hm, Amount.minus_whole] at hleft
    obtain rfl := Except.ok.inj hleft
    rw [hm, Amount.int_whole] at hbooks
    refine ⟨⟨h.limit_eq, ⟨_, rfl⟩, h.queued, ⟨h.fits, ?_⟩, ?_⟩, rfl⟩
    · change (Books.of limit s.stage.journal).Affords _
      rw [hbooks]
      exact ⟨_, _, _, rfl, rfl, Int.natCast_nonneg _, hlt⟩
    · change ((Books.of limit s.stage.journal).shift _).setAside _ = _
      rw [hbooks, Books.within_shift, Books.within_setAside]
      rfl
  · rw [prepare_eq_error he]
    exact ⟨aside, h⟩

/-- Gas that was set aside comes back. -/
theorem refund_keeping (c : Call) (b : Amount) :
    Leads (Ready limit f start c b) (fun _ => Keeping limit f start) (Keeping limit f start)
      (refund (Meter.full b)) := by
  intro s h
  obtain ⟨m, hm⟩ := h.isWhole
  obtain rfl := h.budget_eq
  refine ⟨fun _ t hr => ?_, fun e t hr => ?_⟩
  · obtain ⟨left, hleft, rfl⟩ := refund_eq_ok hr
    rw [hm, Meter.full, Amount.plus_whole] at hleft
    obtain rfl := Except.ok.inj hleft
    have hbooks := h.books
    rw [hm, Amount.int_whole] at hbooks
    refine ⟨0, h.limit_eq, ⟨_, rfl⟩, h.queued, ⟨h.fits, ?_⟩, ?_⟩
    · change (Books.of limit s.stage.journal).Affords _
      rw [hbooks]
      exact ⟨rfl, List.cons_ne_nil _ _⟩
    · change ((Books.of limit s.stage.journal).shift _).setAside _ = _
      rw [hbooks, Books.within_shift, Books.within_setAside]
      rfl
  · rw [(refund_eq_error hr).2]
    exact h.keeping

/-- The frame that is back, on whatever calls it has queued then. -/
theorem Ready.returned {c : Call} {b : Amount} {exit : Exit} {m n : Int} (h : Ready limit f start c b s)
    (hexit : exit.KeepsBooks limit ⟨c, b, f.asyncDepth, none⟩ s.stage)
    (hm : s.gas.remaining = .whole m) (hn : exit.gas.remaining = .whole n) :
    Booked limit f start 0 ((Frame.returned s exit (.whole (m + n))).queuing exit.queued) := by
  have hbooks := hexit.books
  rw [h.books, Books.within_settle, Books.within_setAside, Books.within_take, hm, hn, Amount.int_whole,
    Amount.int_whole] at hbooks
  refine ⟨h.limit_eq, ⟨_, rfl⟩, fun a ha => ?_, ⟨hexit.fits, ?_⟩, ?_⟩
  · exact (List.mem_append.1 ha).elim (h.queued a) (hexit.queued a)
  · change (Books.of limit exit.stage.journal).Affords (.refunded exit.gas.remaining)
    rw [hbooks, hn]
    exact ⟨rfl, List.cons_ne_nil _ _⟩
  · change ((Books.of limit exit.stage.journal).shift exit.gas.remaining.int).setAside 0 = _
    rw [hbooks, hn, Amount.int_whole, Books.within_shift, Books.within_setAside]
    simp only [Running.queuing, Frame.returned, Running.noted, Running.holding, Running.onStage, budgets_append,
      Amount.int_whole]

/-- A nested frame gives back what it has left, and its caller takes over what it has queued. -/
theorem runChild_keeping (hl : launch.KeepsBooks limit) (c : Call) (b : Amount) (movesValue : Bool) :
    Leads (Ready limit f start c b) (fun _ => Keeping limit f start) (Keeping limit f start)
      (runChild launch f c b movesValue) := by
  have hend : ∀ s, Ready limit f start c b s → ∀ o t, runChild launch f c b movesValue s = (o, t) →
      Keeping limit f start t := by
    intro s h o t hx
    have hexit := hl ⟨c, b, f.asyncDepth, none⟩ movesValue s.stage h.fits (by
      rw [h.books]
      exact ⟨h.budget_eq, rfl⟩)
    have hcases := runChild_cases hx
    set exit := launch ⟨c, b, f.asyncDepth, none⟩ movesValue s.stage
    obtain ⟨m, hm⟩ := h.isWhole
    obtain ⟨n, hn⟩ := hexit.isWhole
    have hplus : s.gas.remaining.plus exit.gas.remaining = .ok (.whole (m + n)) := by
      rw [hm, hn, Amount.plus_whole]
    have hback := h.returned hexit hm hn
    rcases hcases with ⟨g, -, hg, -⟩ | ⟨left, hleft, ⟨done, ho, -, rfl⟩ | ⟨e, ho, -, rfl⟩⟩
    · rw [hplus] at hg
      cases hg
    · obtain rfl := Except.ok.inj (hplus.symm.trans hleft)
      have hq : exit.queued = done.queued := by rw [Exit.queued, ho]
      rw [hq] at hback
      exact ⟨0, hback.congr rfl rfl rfl⟩
    · obtain rfl := Except.ok.inj (hplus.symm.trans hleft)
      have hq : exit.queued = [] := by rw [Exit.queued, ho]
      rw [hq, Running.queuing, List.append_nil] at hback
      exact ⟨0, hback⟩
  exact fun s h => ⟨fun _ _ hx => hend s h _ _ hx, fun _ _ hx => hend s h _ _ hx⟩

theorem keepsCalls_keeping (hl : launch.KeepsBooks limit) {r : CallRequest} (hr : r.gas.IsPointless) :
    KeepsCalls f r launch (Keeping limit f start) (Ready limit f start) where
  prepare := prepare_ready hr
  move _ _ _ h := ⟨h.congr rfl rfl rfl, h.budget_eq⟩
  child := runChild_keeping hl
  refund := refund_keeping
  weaken h := h.keeping

/-- A queued call keeps the gas that was set aside for it. -/
theorem Ready.queued_call {a : AsyncCall} (h : Ready limit f start a.call a.budget s) (hkind : a.call.kind = .async) :
    Keeping limit f start ((s.queuing [a]).noted (.queued a)) := by
  refine ⟨0, h.limit_eq, h.isWhole, fun a' ha => ?_, ⟨h.fits, ?_⟩, ?_⟩
  · rcases List.mem_append.1 ha with ha | ha
    · exact h.queued a' ha
    · obtain rfl := List.mem_singleton.1 ha
      exact ⟨h.budget_eq, hkind⟩
  · change (Books.of limit s.stage.journal).Affords _
    rw [h.books]
    exact ⟨h.budget_eq, rfl, List.cons_ne_nil _ _⟩
  · change ((Books.of limit s.stage.journal).take [a.budget.int]).setAside 0 = _
    rw [h.books, Books.within_take, Books.within_setAside]
    simp only [Running.queuing, Running.noted, budgets_append]
    rfl

theorem keeps_keeping (hl : launch.KeepsBooks limit) :
    Keeps (Keeping limit f start) Request.AsksWhole host launch f where
  payments _ _ h := h.imp fun _ h => h.congr rfl rfl rfl
  started := note_keeping (fun _ => trivial) fun _ => rfl
  charge n := charge_keeping n
  store _ _ := .bind (onWorld_keeping _) fun _ => note_keeping (fun _ => trivial) fun _ => rfl
  log _ := .bind (.modify fun _ h => h.imp fun _ h => h.congr rfl rfl rfl) fun _ =>
    note_keeping (fun _ => trivial) fun _ => rfl
  send _ _ _ _ := onWorld_keeping _
  call mode _ hr := (keepsCalls_keeping hl hr).makeCall mode
  callAsync hr := (keepsCalls_keeping hl hr).callAsync _ _ fun _ _ _ _ hkind _ h => h.queued_call hkind

/-! ### Frames -/

theorem body_keeping (hr : host.registry.Asks Request.AsksWhole) (hc : host.registry.All Endpoint.CostsNatural)
    (hl : launch.KeepsBooks limit) (movesValue : Bool) :
    Preserves (Keeping limit f start) (body host launch f movesValue) := by
  refine body_preserves (fun he ha => ?_) (onWorld_keeping _)
    (fun he => (keeps_keeping hl).runEndpoint (of_resolve hr he)) movesValue
  have hcosts : host.registry.All (Endpoint.Costs Amount.IsNatural) := hc
  obtain ⟨n, rfl⟩ := entryCost_of (fun n => ⟨n, rfl⟩) hcosts he ha
  exact charge_keeping n

/-- A frame begins with nothing queued on a meter that holds its budget. -/
theorem entered_booked (hfits : Books.Fits limit start.journal)
    (hset : (Books.of limit start.journal).Affords (.entered f.call f.budget start.stack.length f.asyncDepth)) :
    Booked limit f start 0 (f.entered start) :=
  ⟨rfl, ⟨_, hset.1⟩, nofun, ⟨hfits, hset⟩, rfl⟩

theorem launchBody_keepsBooks {body : Frame → Bool → Action Running (List Bytes)}
    (hb : ∀ f movesValue start, Preserves (Keeping limit f start) (body f movesValue)) :
    (launchBody body).KeepsBooks limit := by
  intro f movesValue stage hfits hset
  obtain ⟨aside, h⟩ := hb f movesValue stage _ ⟨0, entered_booked hfits hset⟩
  rcases hr : body f movesValue (f.entered stage) with ⟨e | data, t⟩
  · rw [launchBody_of_error hr]
    rw [hr] at h
    refine ⟨h.limit_eq, h.isWhole, nofun, ⟨h.fits, ?_⟩, ?_⟩
    · rw [h.books]
      exact ⟨_, _, rfl, h.isWhole.eq⟩
    · change (Books.of limit t.stage.journal).close false _ = _
      rw [h.books, Books.within_close]
      rfl
  · rw [launchBody_of_ok hr]
    rw [hr] at h
    refine ⟨h.limit_eq, h.isWhole, h.queued, ⟨h.fits, ?_⟩, ?_⟩
    · rw [h.books]
      exact ⟨_, _, rfl, h.isWhole.eq⟩
    · change (Books.of limit t.stage.journal).close true _ = _
      rw [h.books, Books.within_close]
      rfl

/-- Frames keep the books at any depth. -/
theorem launch_keepsBooks (hr : host.registry.Asks Request.AsksWhole)
    (hc : host.registry.All Endpoint.CostsNatural) : ∀ room, (Frame.launch host room).KeepsBooks limit
  | 0 => launchBody_keepsBooks fun _ _ _ => .stop _
  | room + 1 => launchBody_keepsBooks fun _ movesValue _ =>
    body_keeping hr hc (launch_keepsBooks hr hc room) movesValue

end Frame

end TrialLedger
