import TrialLedger.Proofs.Engine.Kinds

/-! What a successful transaction says that it used. It is all gas that was charged in it, and
also the gas that was set aside for calls that were dropped with the frames that queued them. -/

namespace TrialLedger

open TrialLedger.Action (Leads Preserves)

namespace Drain

variable {deepest : Nat} {limit : Int} {k : Nat} {l : List AsyncCall} {b : Amount} {launch : Launch}

/-- The transaction accounts for its limit while so much is in hand. Calls `l` are left of the round
at depth `k`, and what was queued meanwhile is due one level down. -/
structure Accounts (deepest : Nat) (limit : Int) (k : Nat) (l : List AsyncCall) (b : Amount)
    (d : Drain) : Prop where
  limit_eq : d.meter.limit = .whole limit
  isWhole : d.meter.remaining.IsWhole
  budget_isWhole : b.IsWhole
  backlog : ∃ new, d.backlog = l ++ new ∧ ∀ a ∈ new, a.Due (k + 1) deepest
  total : d.meter.remaining.int + heldBy d.backlog + spent d.stage.journal + b.int = limit

theorem runFrame_leads (hl : launch.Settles deepest) {f : Frame} (hf : f.asyncDepth = k) :
    Leads (Accounts deepest limit k l f.budget) (fun p => Accounts deepest limit k l p.2.remaining)
      (fun _ => True) (runFrame launch f) := by
  refine fun d h => ⟨fun p t hx => ?_, fun _ _ _ => trivial⟩
  have hsettles := hl f true d.stage h.budget_isWhole
  obtain ⟨new, hnew, hdue⟩ := h.backlog
  obtain ⟨hgas, rfl⟩ := runFrame_eq_ok hx
  set exit := launch f true d.stage
  have ht := h.total
  have hx := hsettles.total
  beta_reduce
  rw [hgas]
  refine ⟨h.limit_eq, h.isWhole, hsettles.isWhole, ⟨new ++ exit.queued, ?_, fun a ha => ?_⟩, ?_⟩
  · rw [hnew, List.append_assoc]
  · rw [← hf] at hdue ⊢
    exact (List.mem_append.1 ha).elim (hdue a) (hsettles.due a)
  · simp only [heldBy_append]
    omega

theorem refund_leads :
    Leads (Accounts deepest limit k l b) (fun _ => Accounts deepest limit k l 0) (fun _ => True)
      (Action.zoom Drain.meter (fun d m => { d with meter := m }) (Meter.refund (Meter.full b))) := by
  refine fun d h => ⟨fun u t hx => ?_, fun _ _ _ => trivial⟩
  obtain ⟨m, hm, rfl⟩ := Action.zoom_eq.1 hx
  obtain ⟨left, hleft, rfl⟩ := Meter.refund_eq_ok hm
  obtain ⟨n, hn⟩ := h.isWhole
  obtain ⟨i, rfl⟩ := h.budget_isWhole
  rw [hn, Meter.full, Amount.plus_whole] at hleft
  obtain rfl := Except.ok.inj hleft
  have ht := h.total
  refine ⟨h.limit_eq, ⟨_, rfl⟩, ⟨0, rfl⟩, h.backlog, ?_⟩
  simp only [hn, Amount.int_whole] at ht ⊢
  change n + i + heldBy d.backlog + spent d.stage.journal + 0 = limit
  omega

/-- A deferred call and its callback give back what they leave of the call's budget. -/
theorem runAsync_leads (hl : launch.Settles deepest) {a : AsyncCall} (ha : a.asyncDepth = k) :
    Leads (Accounts deepest limit k l a.budget) (fun _ => Accounts deepest limit k l 0) (fun _ => True)
      (runAsync launch a) :=
  runAsync_leads_of (T := fun _ q => Accounts deepest limit k l q.2)
    (runFrame_leads hl (f := ⟨a.call, a.budget, a.asyncDepth, none⟩) ha) (fun _ _ _ h => h)
    (fun _ p c _ => runFrame_leads hl (f := ⟨c, p.2.remaining, a.asyncDepth, some p.1⟩) ha)
    (fun _ _ _ => trivial) (fun _ _ => refund_leads) fun _ _ _ h =>
      ⟨h.limit_eq, h.isWhole, h.budget_isWhole, h.backlog, h.total⟩

/-- The calls of a round run on what was set aside for them. -/
theorem runRound_leads (hl : launch.Settles deepest) (hk : ∀ a ∈ l, a.Due k deepest) :
    Leads (Accounts deepest limit k l 0) (fun _ => Accounts deepest limit k [] 0) (fun _ => True)
      (runRound launch l) := by
  refine runRound_leads_of (I := fun l => Accounts deepest limit k l 0)
    (H := fun a r => Accounts deepest limit k r a.budget) (fun a r d hdue h => ?_)
    (fun a r hdue => runAsync_leads hl hdue.depth_eq) hk
  obtain ⟨new, hnew, hdues⟩ := h.backlog
  have ht := h.total
  refine ⟨h.limit_eq, h.isWhole, hdue.isWhole, ⟨new, by rw [hnew]; rfl, hdues⟩, ?_⟩
  simp only [hnew, heldBy, List.cons_append, List.map_cons, List.sum_cons, List.drop_succ_cons,
    List.drop_zero] at ht ⊢
  change _ + (0 : Int) = limit at ht
  omega

/-- After as many rounds as there are levels no call is left, since none may be queued below. -/
theorem run_leads (hl : launch.Settles deepest) {rounds : Nat} (hk : k + rounds = deepest) :
    Leads (Accounts deepest limit k [] 0) (fun _ d => d.backlog = [] ∧ ∃ k, Accounts deepest limit k [] 0 d)
      (fun _ => True) (run launch rounds) := by
  induction rounds generalizing k with
  | zero =>
    refine .pure fun d h => ⟨?_, k, h⟩
    obtain ⟨new, hnew, hdue⟩ := h.backlog
    rw [hnew, List.nil_append]
    refine List.eq_nil_iff_forall_not_mem.2 fun a ha => ?_
    have := (hdue a ha).le_deepest
    omega
  | succ rounds ih =>
    intro d h
    obtain ⟨new, hnew, hdue⟩ := h.backlog
    rw [run_succ_apply]
    by_cases he : d.backlog.isEmpty
    · rw [if_pos he]
      exact Leads.pure (P := (· = d)) (by rintro _ rfl; exact ⟨List.isEmpty_iff.1 he, k, h⟩) d rfl
    · rw [if_neg he]
      have hstart : Accounts deepest limit (k + 1) d.backlog 0 d :=
        ⟨h.limit_eq, h.isWhole, h.budget_isWhole, ⟨[], by simp, nofun⟩, h.total⟩
      exact ((runRound_leads hl (by simpa [hnew] using hdue)).bind fun _ => ih (by omega)) d hstart

end Drain

namespace Engine

variable {e e' : Engine} {c : Call} {result : TransactionResult}

/-- The deferred calls of a transaction run until none is left, and account for its limit. -/
theorem drain_accounts (hl : e.launch.Settles e.host.settings.maxAsyncDepth) {done : Committed} {d : Drain}
    (ho : (e.outer c).outcome = .ok done)
    (hrun : Drain.run e.launch e.host.settings.maxAsyncDepth
      ⟨(e.outer c).stage, done.queued, (e.outer c).gas, done.logs, []⟩ = (.ok (), d)) :
    d.backlog = [] ∧ ∃ k, Drain.Accounts e.host.settings.maxAsyncDepth c.gasLimit k [] 0 d := by
  have hx := hl ⟨c, c.gasLimit, 0, none⟩ true ⟨e.world, e.active, []⟩ ⟨_, rfl⟩
  change (e.outer c).Settles _ _ _ at hx
  have hq : (e.outer c).queued = done.queued := by rw [Exit.queued, ho]
  have hstart : Drain.Accounts e.host.settings.maxAsyncDepth c.gasLimit 0 [] 0
      ⟨(e.outer c).stage, done.queued, (e.outer c).gas, done.logs, []⟩ := by
    refine ⟨hx.limit, hx.isWhole, ⟨0, rfl⟩, ⟨done.queued, rfl, hq ▸ hx.due⟩, ?_⟩
    have ht := hx.total
    rw [hq] at ht
    exact (Int.add_zero _).trans (ht.trans (Int.add_zero _))
  exact (Drain.run_leads hl (Nat.zero_add _) _ hstart).1 _ _ hrun

/-- A successful transaction uses the gas that was charged in it and the gas that it stranded. -/
theorem gasUsed_of_asks (hasks : e.host.registry.Asks Request.AsksWhole)
    (hcosts : e.host.registry.All Endpoint.CostsWhole)
    (hraises : e.host.registry.Raises Stop.IsHonest) (h : execute c e = (.ok result, e'))
    (hs : result.isSuccess = true) :
    result.gasUsed = .whole (charged e'.journal + stranded e'.journal) := by
  have hl := Frame.launch_settles hasks hcosts e.room
  rcases execute_cases h with ⟨f, ho, rfl, rfl⟩ | ⟨done, d, ho, hd, rfl, hrun⟩
  · have hf : (Stop.failure f).IsHonest := Frame.launch_honest hraises _ _ _ _ _ ho
    exact absurd (of_decide_eq_true hs) hf
  · obtain ⟨hempty, k, hend⟩ := drain_accounts hl ho hrun
    obtain ⟨n, hn⟩ := hend.isWhole
    have ht := hend.total
    have hused : d.meter.used = .ok (.whole (c.gasLimit - n)) := by
      rw [Meter.used, hend.limit_eq, hn, Amount.minus_whole]
    unfold Drain.result at hd
    rw [hused] at hd
    cases hd
    rw [hempty, hn, spent, heldBy_nil] at ht
    change n + 0 + (charged d.stage.journal + stranded d.stage.journal) + 0 = (c.gasLimit : Int) at ht
    change Amount.whole _ = .whole (charged d.stage.journal + stranded d.stage.journal)
    congr 1
    omega

/-- A successful transaction uses the gas that was charged in it and the gas that it stranded. So it
says how much was charged exactly when it stranded none. Contracts may rely on being told of whole gas only, and
where they rely on whole balances, these are whole at first and contracts send whole amounts. -/
theorem gasUsed_eq (funds : Prop) (hw : funds → e.world.IsWhole) (hcosts : e.host.registry.All Endpoint.CostsWhole)
    (hasks : e.host.registry.AsksGiven (Call.MayTell Amount.IsWhole fun a => funds → a.IsWhole) fun r =>
      r.AsksWhole ∧ (funds → r.SendsWhole))
    (hraises : e.host.registry.RaisesGiven (Call.MayTell Amount.IsWhole fun a => funds → a.IsWhole) Stop.IsHonest)
    (h : execute c e = (.ok result, e')) (hs : result.isSuccess = true) :
    result.gasUsed = .whole (charged e'.journal + stranded e'.journal) ∧
      (result.gasUsed = .whole (charged e'.journal) ↔ stranded e'.journal = 0) := by
  have hcut := execute_within_whole hw (hcosts.mono fun _ h => h.costs) hasks h
  have hused := gasUsed_of_asks (e := e.within _) (hasks.mono fun _ h => h.1).within (.within _ hcosts)
    (hraises.within trivial) hcut hs
  refine ⟨hused, ?_⟩
  rw [hused, Amount.whole.injEq]
  change charged e'.journal + stranded e'.journal = charged e'.journal ↔ _
  omega

/-! ### Gas that is stranded -/

/-- Queues a call and then fails. -/
def rash (e : Entry) : Program Value := do
  Program.request (.callAsync { receiver := .bytes e.call.receiver, gas := .int 500 } .nothing (.list []))
  Program.signal "changed my mind"

/-- Makes a call of the same contract that does so, and takes no notice of its failure. -/
def attempt (e : Entry) : Program Value := do
  let _ ← Program.request
    (.call .report { receiver := .bytes e.call.receiver, function := .text "rash", gas := .int 5000 })
  return .nothing

/-- An engine with one contract, which has both endpoints. -/
def rashEngine : Engine where
  host := {
    registry := ⟨Table.ofList [("sample", ⟨Table.ofList [
      ("rash", { name := "rash", method := "rash", body := rash }),
      ("attempt", { name := "attempt", method := "attempt", body := attempt })]⟩)]⟩
    settings := {} }
  world := { accounts := Table.ofList [([1], { code := some "sample" })] }

def rashCall : Call := .unpaid [2] [1] "attempt" 10000

theorem rashEngine_all {p : Endpoint → Prop} (h : p { name := "rash", method := "rash", body := rash })
    (h' : p { name := "attempt", method := "attempt", body := attempt }) :
    rashEngine.host.registry.All p := by
  refine .of_entries fun c hc e he => ?_
  obtain rfl := List.mem_singleton.1 hc
  rcases List.mem_cons.1 he with rfl | he
  · exact h
  · obtain rfl := List.mem_singleton.1 he
    exact h'

theorem rashEngine_isWhole : rashEngine.world.IsWhole := by
  refine ⟨fun e he => ?_, nofun⟩
  obtain rfl := List.mem_singleton.1 he
  rintro (_ | _) <;> exact ⟨0, rfl⟩

theorem rashEngine_asks : rashEngine.host.registry.AsksGiven
    (Call.MayTell Amount.IsWhole fun a => True → a.IsWhole) fun r => r.AsksWhole ∧ (True → r.SendsWhole) := by
  refine rashEngine_all (fun _ => ?_) fun _ => ?_
  · exact .bind (.request ⟨nofun, fun _ => trivial⟩) fun _ => trivial
  · exact .bind (.request ⟨nofun, fun _ => trivial⟩) fun _ => trivial

/-- Both frames pay for their entry alone, and the budget of the call that was queued is missing too. -/
theorem gasUsed_eq_rash :
    ∃ result, (execute rashCall rashEngine).1 = .ok result ∧ result.gasUsed = .whole (2000 + 500) := by
  have hraises : rashEngine.host.registry.RaisesGiven (Call.MayTell Amount.IsWhole fun a => True → a.IsWhole)
      Stop.IsHonest := by
    refine rashEngine_all (fun e => ?_) fun e => ?_
    · have hrash : (rash e).Raises Stop.IsHonest := .bind (.request _) fun _ => Failure.user_honest _
      exact hrash.given
    · have hattempt : (attempt e).Raises Stop.IsHonest := .bind (.request _) fun _ => trivial
      exact hattempt.given
  have hcosts : rashEngine.host.registry.All Endpoint.CostsWhole := rashEngine_all nofun nofun
  refine ⟨_, rfl, ?_⟩
  have h := (gasUsed_eq (e := rashEngine) (c := rashCall) True (fun _ => rashEngine_isWhole) hcosts rashEngine_asks
    hraises rfl rfl).1
  exact h

/-- The transaction succeeds, and it says that it used more than was charged. -/
theorem gasUsed_ne_charged :
    ∃ result, (execute rashCall rashEngine).1 = .ok result ∧ result.isSuccess = true ∧
      charged (execute rashCall rashEngine).2.journal = 2000 ∧ result.gasUsed = .whole 2500 :=
  ⟨_, rfl, rfl, rfl, rfl⟩

end Engine

end TrialLedger
