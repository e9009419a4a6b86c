import TrialLedger.Proofs.Engine.Books
import TrialLedger.Proofs.GasUsed

/-! No gas comes from nowhere. From the first frame of a transaction to its last callback the meters and the calls
that wait hold no more than the gas limit leaves beside what was charged, and the result tells
what is left of it. -/

namespace TrialLedger

open TrialLedger.Action (Leads Preserves)

namespace Drain

variable {limit : Nat} {l : List AsyncCall} {waiting : List Int} {purse aside : Int} {b : Amount} {launch : Launch}
  {d : Drain}

/-- No frame is open, and calls `l` are left of a round. In the books the budgets `waiting` come before
those of the backlog. -/
structure Booked (limit : Nat) (l : List AsyncCall) (waiting : List Int) (purse aside : Int) (d : Drain) : Prop where
  limit_eq : d.meter.limit = .whole limit
  fits : Books.Fits limit d.stage.journal
  set : ∀ a ∈ d.backlog, a.IsSet
  round : l <+: d.backlog
  books : Books.of limit d.stage.journal = ⟨purse, aside, [], waiting ++ budgets d.backlog⟩

/-- The transaction's meter holds all that no call holds. -/
def Resting (limit : Nat) (l : List AsyncCall) (waiting : List Int) (d : Drain) : Prop :=
  ∃ purse aside, Booked limit l waiting purse aside d ∧ d.meter.remaining = .whole (purse + aside)

/-- The transaction's meter holds its purse, and the rest is in hand. -/
def Handing (limit : Nat) (l : List AsyncCall) (b : Amount) (d : Drain) : Prop :=
  ∃ purse aside, Booked limit l [] purse aside d ∧ d.meter.remaining = .whole purse ∧ b = .whole aside

/-- The books of a drain are in order, also when it stops. -/
def Fits (limit : Nat) (d : Drain) : Prop := Books.Fits limit d.stage.journal

theorem runFrame_stage (launch : Launch) (f : Frame) (d : Drain) :
    (runFrame launch f d).2.stage = (launch f true d.stage).stage := by
  unfold runFrame
  dsimp only
  split <;> rfl

/-- A frame that begins on what is set aside leaves its rest aside, and its queued calls in the backlog. -/
theorem runFrame_booked (hl : launch.KeepsBooks limit) {f : Frame} {purse' : Int}
    (h : Booked limit l waiting purse aside d) (hbudget : f.budget = .whole f.call.gasLimit)
    (hsettle : (Books.of limit d.stage.journal).settle f.call =
      ⟨purse', f.call.gasLimit, [], budgets d.backlog⟩) :
    Fits limit (runFrame launch f d).2 ∧ ∀ p t, runFrame launch f d = (.ok p, t) →
      t.meter = d.meter ∧ ∃ rest, Booked limit l [] purse' rest t ∧ p.2.remaining = .whole rest := by
  have hexit := hl f true d.stage h.fits ⟨hbudget, by rw [hsettle]⟩
  refine ⟨?_, fun p t hx => ?_⟩
  · rw [Fits, runFrame_stage]
    exact hexit.fits
  · obtain ⟨hgas, rfl⟩ := runFrame_eq_ok hx
    set exit := launch f true d.stage
    obtain ⟨n, hn⟩ := hexit.isWhole
    have hbooks := hexit.books
    rw [hsettle, hn] at hbooks
    refine ⟨rfl, n, ⟨h.limit_eq, hexit.fits, fun a ha => ?_, ?_, ?_⟩, by rw [hgas, hn]⟩
    · exact (List.mem_append.1 ha).elim (h.set a) (hexit.queued a)
    · exact h.round.trans (List.prefix_append _ _)
    · rw [budgets_append]
      exact hbooks

/-- A deferred call runs on its budget, which is first in the backlog. -/
theorem runCall_books (hl : launch.KeepsBooks limit) {a : AsyncCall} (ha : a.IsSet) :
    Leads (Resting limit l [a.budget.int]) (fun p => Handing limit l p.2.remaining) (Fits limit)
      (runFrame launch ⟨a.call, a.budget, a.asyncDepth, none⟩) := by
  rintro d ⟨purse, aside, h, hmeter⟩
  have hsettle : (Books.of limit d.stage.journal).settle a.call =
      ⟨purse + aside, a.call.gasLimit, [], budgets d.backlog⟩ := by
    rw [h.books, ha.budget_eq]
    simp only [Books.settle, List.cons_append, List.nil_append, if_pos ha.kind_eq, Amount.int_whole]
  have hrun := runFrame_booked hl (f := ⟨a.call, a.budget, a.asyncDepth, none⟩) h ha.budget_eq hsettle
  refine ⟨fun p t hx => ?_, fun e t hx => ?_⟩
  · obtain ⟨ht, rest, hbooked, hrest⟩ := hrun.2 p t hx
    exact ⟨purse + aside, rest, hbooked, by rw [ht, hmeter], hrest⟩
  · have hfits := hrun.1
    rwa [hx] at hfits

/-- A callback runs on what its call has left over. -/
theorem runCallback_books (hl : launch.KeepsBooks limit) {a : AsyncCall} {result : CallResult} {c : Call}
    (hc : callbackCall a result b = .ok c) (asyncDepth : Nat) :
    Leads (Handing limit l b) (fun p => Handing limit l p.2.remaining) (Fits limit)
      (runFrame launch ⟨c, b, asyncDepth, some result⟩) := by
  rintro d ⟨purse, aside, h, hmeter, rfl⟩
  obtain ⟨arguments, hcall⟩ := callbackCall_steps hc
  have hkind : c.kind = .asyncCallback := (CallRequest.call_eq_ok hcall).2.2.2.2.2.2
  have hpointless : (Amount.whole aside).value.IsPointless := nofun
  have hgas : Amount.whole aside = .whole c.gasLimit :=
    hpointless.eq_of_asNatural (CallRequest.gasLimit_of_call hcall) rfl
  have hsettle : (Books.of limit d.stage.journal).settle c = ⟨purse, c.gasLimit, [], budgets d.backlog⟩ := by
    have hne : c.kind ≠ .async := by simp [hkind]
    obtain rfl := Amount.whole.inj hgas
    rw [h.books, List.nil_append]
    unfold Books.settle
    cases budgets d.backlog with
    | nil => rfl
    | cons n r => exact if_neg hne
  have hrun := runFrame_booked hl (f := ⟨c, .whole aside, asyncDepth, some result⟩) h hgas hsettle
  refine ⟨fun p t hx => ?_, fun e t hx => ?_⟩
  · obtain ⟨ht, rest, hbooked, hrest⟩ := hrun.2 p t hx
    exact ⟨purse, rest, hbooked, by rw [ht, hmeter], hrest⟩
  · have hfits := hrun.1
    rwa [hx] at hfits

theorem refund_resting : Leads (Handing limit l b) (fun _ => Resting limit l []) (Fits limit)
    (Action.zoom Drain.meter (fun d m => { d with meter := m }) (Meter.refund (Meter.full b))) := by
  rintro d ⟨purse, aside, h, hmeter, rfl⟩
  refine ⟨fun u t hx => ?_, fun e t hx => ?_⟩
  · obtain ⟨m, hm, rfl⟩ := Action.zoom_eq.1 hx
    obtain ⟨left, hleft, rfl⟩ := Meter.refund_eq_ok hm
    rw [hmeter, Meter.full, Amount.plus_whole] at hleft
    obtain rfl := Except.ok.inj hleft
    exact ⟨purse, aside, ⟨h.limit_eq, h.fits, h.set, h.round, h.books⟩, rfl⟩
  · obtain ⟨m, -, rfl⟩ := Action.zoom_eq.1 hx
    exact h.fits

/-- A deferred call and its callback leave to the transaction what they do not use. -/
theorem runAsync_books (hl : launch.KeepsBooks limit) {a : AsyncCall} (ha : a.IsSet) :
    Leads (Resting limit l [a.budget.int]) (fun _ => Resting limit l []) (Fits limit) (runAsync launch a) :=
  runAsync_leads_of (T := fun _ q => Handing limit l q.2)
    (runCall_books hl ha) (fun _ _ _ h => h) (fun _ _ _ hc => runCallback_books hl hc a.asyncDepth)
    (fun _ _ ⟨_, _, h, _⟩ => h.fits) (fun _ _ => refund_resting)
    fun _ _ _ ⟨purse, aside, h, hmeter⟩ => ⟨purse, aside, ⟨h.limit_eq, h.fits, h.set, h.round, h.books⟩, hmeter⟩

theorem runRound_books (hl : launch.KeepsBooks limit) (hset : ∀ a ∈ l, a.IsSet) :
    Leads (Resting limit l []) (fun _ => Resting limit [] []) (Fits limit) (runRound launch l) := by
  refine runRound_leads_of (I := fun l => Resting limit l []) (H := fun a r => Resting limit r [a.budget.int])
    ?_ (fun a r ha => runAsync_books hl ha) hset
  rintro a r d - ⟨purse, aside, h, hmeter⟩
  obtain ⟨new, hnew⟩ := h.round
  have hbooks := h.books
  have hwaiting := h.set
  rw [← hnew] at hbooks hwaiting
  refine ⟨purse, aside, ⟨h.limit_eq, h.fits, fun a' ha => ?_, ⟨new, by rw [← hnew]; rfl⟩, ?_⟩, hmeter⟩
  · rw [← hnew] at ha
    exact hwaiting a' (List.mem_cons_of_mem _ ha)
  · rw [← hnew]
    exact hbooks

/-- All rounds keep the books. -/
theorem run_books (hl : launch.KeepsBooks limit) (rounds : Nat) :
    Leads (Resting limit [] []) (fun _ => Resting limit [] []) (Fits limit) (run launch rounds) := by
  refine run_leads_of (fun l => ?_) rounds
  rintro d ⟨⟨purse, aside, h, hmeter⟩, rfl⟩
  exact runRound_books hl h.set d ⟨purse, aside, ⟨h.limit_eq, h.fits, h.set, List.prefix_refl _, h.books⟩, hmeter⟩

end Drain

namespace Engine

variable {e : Engine} {c : Call}

/-- The own call of a transaction begins on its whole gas limit. -/
theorem outer_keepsBooks (hl : e.launch.KeepsBooks c.gasLimit) :
    (e.outer c).KeepsBooks c.gasLimit ⟨c, c.gasLimit, 0, none⟩ ⟨e.world, e.active, []⟩ :=
  hl ⟨c, c.gasLimit, 0, none⟩ true ⟨e.world, e.active, []⟩ trivial ⟨rfl, rfl⟩

theorem drain_resting (hl : e.launch.KeepsBooks c.gasLimit) {done : Committed} (ho : (e.outer c).outcome = .ok done) :
    Drain.Resting c.gasLimit [] [] ⟨(e.outer c).stage, done.queued, (e.outer c).gas, done.logs, []⟩ := by
  have hexit := outer_keepsBooks hl
  have hq : (e.outer c).queued = done.queued := by rw [Exit.queued, ho]
  obtain ⟨n, hn⟩ := hexit.isWhole
  have hbooks := hexit.books
  rw [hq, hn] at hbooks
  refine ⟨0, n, ⟨hexit.limit_eq, hexit.fits, hq ▸ hexit.queued, List.nil_prefix, hbooks⟩, ?_⟩
  rw [Int.zero_add]
  exact hn

/-- The journal of a transaction is in order, however the transaction ends. -/
theorem execute_fits (hl : e.launch.KeepsBooks c.gasLimit) (hidle : e.active = []) :
    Books.Fits c.gasLimit (execute c e).2.journal := by
  have hexit := outer_keepsBooks (c := c) hl
  have houter : e.launch ⟨c, c.gasLimit, 0, none⟩ true ⟨e.world, e.active, []⟩ = e.outer c := rfl
  unfold execute
  rw [if_neg (by simp [hidle])]
  dsimp only
  rw [houter]
  cases ho : (e.outer c).outcome with
  | error s => cases s <;> exact hexit.fits
  | ok done =>
    have hrun := Drain.run_books hl e.host.settings.maxAsyncDepth _ (drain_resting hl ho)
    dsimp only
    rcases hd : Drain.run e.launch e.host.settings.maxAsyncDepth
      ⟨(e.outer c).stage, done.queued, (e.outer c).gas, done.logs, []⟩ with ⟨x | u, d⟩
    · exact hrun.2 x d hd
    · obtain ⟨_, _, h, _⟩ := hrun.1 u d hd
      exact h.fits

/-- A result says what is left of the gas limit, which is not below zero, and what is used is the rest. -/
theorem result_within_limit (hl : e.launch.KeepsBooks c.gasLimit) {result : TransactionResult}
    (h : (execute c e).1 = .ok result) : ∃ n : Int, 0 ≤ n ∧ n ≤ c.gasLimit ∧
      result.gasRemaining = .whole n ∧ result.gasUsed = .whole (c.gasLimit - n) := by
  rcases execute_cases (Prod.ext h rfl) with ⟨f, -, rfl, -⟩ | ⟨done, d, ho, hd, -, hrun⟩
  · exact ⟨0, Int.le_refl 0, Int.natCast_nonneg _, rfl, congrArg Amount.whole (Int.sub_zero _).symm⟩
  · obtain ⟨purse, aside, hbooked, hmeter⟩ := (Drain.run_books hl _ _ (drain_resting hl ho)).1 _ _ hrun
    obtain ⟨used, hused, rfl⟩ := Drain.result_eq_ok hd
    have hsolvent := hbooked.fits.solvent
    have htotal := hbooked.fits.total_le
    have hcharged := hbooked.fits.charged_nonneg
    rw [hbooked.books] at hsolvent htotal
    have hheld : Books.total ⟨purse, aside, [], [] ++ budgets d.backlog⟩ =
        purse + aside + (budgets d.backlog).sum := by
      simp only [Books.total, List.map_nil, List.sum_nil, List.nil_append, Int.add_zero]
    have hbacklog : 0 ≤ (budgets d.backlog).sum := List.sum_nonneg hsolvent.backlog
    have hlimit : purse + aside ≤ c.gasLimit := by omega
    have husing : d.meter.used = .ok (.whole (c.gasLimit - (purse + aside))) := by
      rw [Meter.used, hbooked.limit_eq, hmeter, Amount.minus_whole]
    rw [husing] at hused
    obtain rfl := Except.ok.inj hused
    exact ⟨purse + aside, Int.add_nonneg hsolvent.purse hsolvent.aside, hlimit, hmeter, rfl⟩

/-- No gas is created. At every moment of a transaction what the meters hold that are live, what the calls hold that
wait and what is on its way between them is not below zero and, all of it together, no more than the gas limit leaves
beside what was charged. Whatever happens then moves gas that is there, and a frame begins on a meter that holds
the whole gas limit of its call. A result tells of no less than zero and of no more than the gas limit. Contracts may
rely on being told of whole gas only, and where they rely on whole balances, these are whole at first and contracts send
whole amounts. -/
theorem gas_within_limit (funds : Prop) (hw : funds → e.world.IsWhole)
    (hcosts : e.host.registry.All Endpoint.CostsNatural)
    (hasks : e.host.registry.AsksGiven (Call.MayTell Amount.IsWhole fun a => funds → a.IsWhole) fun r =>
      r.AsksWhole ∧ (funds → r.SendsWhole)) :
    (e.active = [] → ∀ moment, moment <:+ (execute c e).2.journal →
      (Books.of c.gasLimit moment).Solvent ∧
      (Books.of c.gasLimit moment).total ≤ c.gasLimit - charged moment ∧
      ∀ event, event :: moment <:+ (execute c e).2.journal → (Books.of c.gasLimit moment).Affords event) ∧
    (e.active = [] → ∀ c' b depth asyncDepth, .entered c' b depth asyncDepth ∈ (execute c e).2.journal →
      Meter.full b = { limit := .whole c'.gasLimit, remaining := .whole c'.gasLimit }) ∧
    ∀ result, (execute c e).1 = .ok result → ∃ n : Int, 0 ≤ n ∧ n ≤ c.gasLimit ∧
      result.gasRemaining = .whole n ∧ result.gasUsed = .whole (c.gasLimit - n) := by
  have hcut := execute_within_whole (c := c) hw (hcosts.mono fun _ h => h.costs_isWhole) hasks rfl
  have hjournal : (execute c (e.within _)).2.journal = (execute c e).2.journal := congrArg (fun p => p.2.journal) hcut
  have hl : (e.within (Call.MayTell Amount.IsWhole fun a => funds → a.IsWhole)).launch.KeepsBooks c.gasLimit :=
    Frame.launch_keepsBooks (hasks.mono fun _ h => h.1).within (.within _ hcosts) e.room
  refine ⟨fun hidle moment hm => ?_, fun hidle c' b depth asyncDepth hm => ?_, fun result hr => ?_⟩
  · have hfits := execute_fits hl hidle
    rw [hjournal] at hfits
    have htotal := (hfits.of_suffix hm).total_le
    exact ⟨(hfits.of_suffix hm).solvent, by omega, fun event he => (hfits.of_suffix he).2⟩
  · have hfits := execute_fits hl hidle
    rw [hjournal] at hfits
    obtain ⟨_, -, rfl, -⟩ := hfits.affords_of_mem hm
    rfl
  · exact result_within_limit hl ((congrArg Prod.fst hcut).trans hr)

/-- The call that a nested frame queues before it fails is held nowhere in the end, and its gas is not given back. -/
theorem gas_within_limit_rash :
    rashEngine.active = [] ∧ rashEngine.host.registry.All Endpoint.CostsNatural ∧
      (Books.of 10000 (execute rashCall rashEngine).2.journal).total ≤ 10000 - 2000 ∧
      ∃ result, (execute rashCall rashEngine).1 = .ok result ∧ ∃ n : Int, 0 ≤ n ∧ n ≤ 10000 ∧
        result.gasRemaining = .whole n ∧ result.gasUsed = .whole (10000 - n) := by
  have hcosts : rashEngine.host.registry.All Endpoint.CostsNatural := rashEngine_all nofun nofun
  have h := gas_within_limit (e := rashEngine) (c := rashCall) True (fun _ => rashEngine_isWhole) hcosts rashEngine_asks
  exact ⟨rfl, hcosts, (h.1 rfl _ List.suffix_rfl).2.1, _, rfl, h.2.2 _ rfl⟩

end Engine

end TrialLedger
