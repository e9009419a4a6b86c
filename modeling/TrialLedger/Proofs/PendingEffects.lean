import TrialLedger.Proofs.Engine.Pending
import TrialLedger.Proofs.GasUsed

/-! Pending effects are neither lost nor repeated nor reordered. A transaction reports the entries that its
surviving frames emitted, and the calls that they queued are run and recorded one by one, all in the
order in which they came about. -/

namespace TrialLedger

open TrialLedger.Action (Leads Preserves)

/-- A queued call that has been run: its record, and the call of its callback when it has one. -/
structure Service where
  call : AsyncCall
  record : AsyncRecord
  callback : Option Call
  destination_eq : record.destination = call.call.receiver
  function_eq : record.function = call.call.function
  name_eq : record.callback = call.callback
  isSome_callback : callback.isSome = Drain.hasCallback call
  isSome_result : record.callbackResult.isSome = callback.isSome
  /-- The callback goes from the called contract to the one that queued the call. -/
  delivers : ∀ c ∈ callback, c.kind = .asyncCallback ∧ c.sender = call.call.receiver ∧
    c.receiver = call.call.sender

/-- A queued call with the results of its frame and of its callback's. -/
def Service.of (a : AsyncCall) (result : CallResult) (callbackResult : Option CallResult)
    {callback : Option Call} (hname : callback.isSome = Drain.hasCallback a)
    (hresult : callbackResult.isSome = callback.isSome)
    (hdelivers : ∀ c ∈ callback, c.kind = .asyncCallback ∧ c.sender = a.call.receiver ∧
      c.receiver = a.call.sender) : Service where
  call := a
  record := ⟨a.call.receiver, a.call.function, result, a.callback, callbackResult⟩
  callback := callback
  destination_eq := rfl
  function_eq := rfl
  name_eq := rfl
  isSome_callback := hname
  isSome_result := hresult
  delivers := hdelivers

/-- The calls of the frames that were run for a queued call. -/
def Service.frames (s : Service) : List Call := s.call.call :: s.callback.toList

namespace Drain

variable {c : Call} {l hand : List AsyncCall} {ran : List Call} {launch : Launch} {deepest : Nat}

/-- The transaction of a call tells what its surviving frames brought about. Calls `l` are left of the
round, those in hand are being served, and frames have been run for them. -/
structure Follows (c : Call) (l hand : List AsyncCall) (ran : List Call) (d : Drain) : Prop where
  isWhole : ∀ a ∈ d.backlog, a.budget.IsWhole
  backlog : ∃ new, d.backlog = l ++ new
  logs_eq : survivingLogs d.stage.journal = d.logs
  served : ∃ served : List Service,
    survivingCalls d.stage.journal = served.map Service.call ++ hand ++ d.backlog ∧
      d.records = served.map Service.record ∧
      roots d.stage.journal = c :: served.flatMap Service.frames ++ ran

/-- A frame comes after those that ran before, and what it queues comes after all that is queued. -/
theorem runFrame_follows (hl : launch.Settles deepest) (ht : launch.Tells) {f : Frame}
    (hb : f.budget.IsWhole) :
    Leads (Follows c l hand ran) (fun p d => Follows c l hand (ran ++ [f.call]) d ∧ p.2.remaining.IsWhole)
      (fun _ => True) (runFrame launch f) := by
  refine fun d h => ⟨fun p t hx => ?_, fun _ _ _ => trivial⟩
  have hsettles := hl f true d.stage hb
  obtain ⟨events, hj, hbrings⟩ := ht f true d.stage hb
  obtain ⟨hgas, rfl⟩ := runFrame_eq_ok hx
  set exit := launch f true d.stage
  obtain ⟨new, hnew⟩ := h.backlog
  obtain ⟨served, hcalls, hrecords, hroots⟩ := h.served
  refine ⟨⟨fun a ha => ?_, ⟨new ++ exit.queued, ?_⟩, ?_, served, ?_, hrecords, ?_⟩, ?_⟩
  · exact (List.mem_append.1 ha).elim (h.isWhole a) fun ha => (hsettles.due a ha).isWhole
  · rw [hnew, List.append_assoc]
  · rw [hj, hbrings.survivingLogs_append, h.logs_eq]
  · rw [hj, hbrings.survivingCalls_append, hcalls, List.append_assoc]
  · rw [hj, hbrings.roots_append, hroots, List.append_assoc]
  · rw [hgas]
    exact hsettles.isWhole

/-- What is told to a callback goes to the contract that queued the call. -/
theorem callbackCall_eq_ok {a : AsyncCall} {result : CallResult} {gas : Amount}
    (h : callbackCall a result gas = .ok c) :
    c.kind = .asyncCallback ∧ c.sender = a.call.receiver ∧ c.receiver = a.call.sender := by
  obtain ⟨arguments, hcall⟩ := callbackCall_steps h
  obtain ⟨hs, hr, -, -, -, -, hk⟩ := CallRequest.call_eq_ok hcall
  exact ⟨hk, hs, (Except.ok.inj hr).symm⟩

/-- The frame of a queued call has run, and that of its callback if it names one. -/
def Ran (c : Call) (l : List AsyncCall) (a : AsyncCall) (callbackResult : Option CallResult) (d : Drain) :
    Prop :=
  ∃ callback : Option Call, Follows c l [a] (a.call :: callback.toList) d ∧
    callback.isSome = hasCallback a ∧ callbackResult.isSome = callback.isSome ∧
    ∀ c ∈ callback, c.kind = .asyncCallback ∧ c.sender = a.call.receiver ∧ c.receiver = a.call.sender

/-- With its record a call has been served, after all others. -/
theorem Ran.recorded {a : AsyncCall} {q : Option CallResult} {d : Drain} (h : Ran c l a q d)
    (result : CallResult) :
    Follows c l [] []
      { d with records := d.records ++ [⟨a.call.receiver, a.call.function, result, a.callback, q⟩] } := by
  obtain ⟨callback, hf, hname, hresult, hdelivers⟩ := h
  obtain ⟨served, hcalls, hrecords, hroots⟩ := hf.served
  set service := Service.of a result q hname hresult hdelivers
  have hframes : (served ++ [service]).flatMap Service.frames =
      served.flatMap Service.frames ++ (a.call :: callback.toList) := by
    rw [List.flatMap_append, List.flatMap_singleton]
    rfl
  refine ⟨hf.isWhole, hf.backlog, hf.logs_eq, served ++ [service], ?_, ?_, ?_⟩
  · rw [hcalls, List.map_append, List.append_nil]
    rfl
  · rw [hrecords, List.map_append]
    rfl
  · rw [hroots, hframes, List.append_nil, List.cons_append]

/-- A call that was taken off the backlog is served. -/
theorem runAsync_follows (hl : launch.Settles deepest) (ht : launch.Tells) {a : AsyncCall}
    (ha : a.budget.IsWhole) :
    Leads (Follows c l [a] []) (fun _ => Follows c l [] []) (fun _ => True) (runAsync launch a) := by
  have hrefund : ∀ q : Option CallResult × Amount, Leads (Ran c l a q.1) (fun _ => Ran c l a q.1)
      (fun _ => True)
      (Action.zoom Drain.meter (fun d m => { d with meter := m }) (Meter.refund (Meter.full q.2))) := by
    intro q
    refine .of_preserves (.zoom fun d h => ?_) fun _ _ => trivial
    obtain ⟨callback, hf, hrest⟩ := h
    exact ⟨callback, ⟨hf.isWhole, hf.backlog, hf.logs_eq, hf.served⟩, hrest⟩
  refine runAsync_leads_of (T := fun _ q => Ran c l a q.1) (runFrame_follows hl ht ha)
    (fun hname p d h => ?_) (fun hname p c' hc d h => ?_) (fun _ _ _ => trivial) (fun _ q => hrefund q)
    fun result q d h => Ran.recorded h result
  · exact ⟨none, h.1, hname.symm, rfl, nofun⟩
  · have hrun : Leads (Follows c l [a] [a.call]) _ _
        (runFrame launch ⟨c', p.2.remaining, a.asyncDepth, some p.1⟩) := runFrame_follows hl ht h.2
    refine ⟨fun q t hx => ⟨some c', ((hrun d h.1).1 q t hx).1, hname.symm, rfl, ?_⟩, fun _ _ _ => trivial⟩
    rintro _ ⟨⟩
    exact callbackCall_eq_ok hc

/-- The calls of a round are served in their order, and those queued meanwhile come after all of them. -/
theorem runRound_follows (hl : launch.Settles deepest) (ht : launch.Tells) :
    Leads (Follows c l [] []) (fun _ => Follows c [] [] []) (fun _ => True) (runRound launch l) := by
  refine runRound_leads_of (p := fun _ => True) (I := fun l => Follows c l [] [])
    (H := fun a r d => Follows c r [a] [] d ∧ a.budget.IsWhole) (fun a r d _ h => ?_)
    (fun a r _ => .given fun ha => runAsync_follows hl ht ha) fun _ _ => trivial
  obtain ⟨new, hnew⟩ := h.backlog
  obtain ⟨served, hcalls, hrecords, hroots⟩ := h.served
  have hmem : a ∈ d.backlog := by
    rw [hnew]
    exact List.mem_cons_self
  refine ⟨⟨fun a' ha => h.isWhole a' (List.mem_of_mem_drop ha), ⟨new, ?_⟩, h.logs_eq, served, ?_, hrecords, hroots⟩,
    h.isWhole a hmem⟩
  · rw [hnew]
    rfl
  · rw [hcalls, hnew, List.append_nil, List.append_assoc]
    rfl

theorem run_follows (hl : launch.Settles deepest) (ht : launch.Tells) (rounds : Nat) :
    Leads (Follows c [] [] []) (fun _ => Follows c [] [] []) (fun _ => True) (run launch rounds) := by
  refine run_leads_of (fun l => (runRound_follows hl ht).mono ?_ (fun _ _ h => h) fun _ h => h) rounds
  rintro d ⟨h, rfl⟩
  exact ⟨h.isWhole, ⟨[], (List.append_nil _).symm⟩, h.logs_eq, h.served⟩

end Drain

namespace Engine

variable {e e' : Engine} {c : Call} {result : TransactionResult}

/-- The pending effects of a transaction whose programs ask for whole gas whatever they are told. -/
theorem pending_effects_of_asks (hasks : e.host.registry.Asks Request.AsksWhole)
    (hcosts : e.host.registry.All Endpoint.CostsWhole) (h : execute c e = (.ok result, e')) :
    result.logs = survivingLogs e'.journal ∧
      ∃ served : List Service, survivingCalls e'.journal = served.map Service.call ∧
        result.asyncCalls = served.map Service.record ∧
        roots e'.journal = c :: served.flatMap Service.frames := by
  have hl := Frame.launch_settles hasks hcosts e.room
  have ht := Frame.launch_tells hasks hcosts e.room
  have hsettles : (e.outer c).Settles e.host.settings.maxAsyncDepth _ _ :=
    hl ⟨c, c.gasLimit, 0, none⟩ true ⟨e.world, e.active, []⟩ ⟨_, rfl⟩
  have htells : (e.outer c).Tells _ _ :=
    ht ⟨c, c.gasLimit, 0, none⟩ true ⟨e.world, e.active, []⟩ ⟨_, rfl⟩
  obtain ⟨events, hj, hbrings⟩ := htells
  have hlogs := hbrings.survivingLogs_append []
  have hcalls := hbrings.survivingCalls_append []
  have hroots := hbrings.roots_append []
  rw [← hj] at hlogs hcalls hroots
  rcases execute_cases h with ⟨f, ho, rfl, rfl⟩ | ⟨done, d, ho, hd, rfl, hrun⟩
  · rw [Exit.logs, ho] at hlogs
    rw [Exit.queued, ho] at hcalls
    exact ⟨hlogs.symm, [], hcalls, rfl, hroots⟩
  · rw [Exit.logs, ho] at hlogs
    have hqueued : (e.outer c).queued = done.queued := by rw [Exit.queued, ho]
    rw [hqueued] at hcalls
    have hstart : Drain.Follows c [] [] []
        ⟨(e.outer c).stage, done.queued, (e.outer c).gas, done.logs, []⟩ := by
      refine ⟨fun a ha => (hsettles.due a (hqueued ▸ ha)).isWhole, ⟨done.queued, rfl⟩, hlogs, [], hcalls,
        rfl, hroots⟩
    have hend := (Drain.run_follows hl ht _ _ hstart).1 _ _ hrun
    obtain ⟨hempty, -⟩ := drain_accounts hl ho hrun
    obtain ⟨served, hcalls, hrecords, hroots⟩ := hend.served
    rw [hempty, List.append_nil, List.append_nil] at hcalls
    rw [List.append_nil] at hroots
    obtain ⟨used, -, rfl⟩ := Drain.result_eq_ok hd
    exact ⟨hend.logs_eq.symm, served, hcalls, hrecords, hroots⟩

/-- A transaction with a result reports exactly the entries that surviving frames emitted, in the
order of emission. Exactly the calls that surviving frames queued are run, each once, in the order in
which they were queued, and each has one record, in the same order. Contracts may rely on being told of whole gas only,
and where they rely on whole balances, these are whole at first and contracts send whole amounts. -/
theorem pending_effects (funds : Prop) (hw : funds → e.world.IsWhole)
    (hcosts : e.host.registry.All Endpoint.CostsWhole)
    (hasks : e.host.registry.AsksGiven (Call.MayTell Amount.IsWhole fun a => funds → a.IsWhole) fun r =>
      r.AsksWhole ∧ (funds → r.SendsWhole)) (h : execute c e = (.ok result, e')) :
    result.logs = survivingLogs e'.journal ∧
      ∃ served : List Service, survivingCalls e'.journal = served.map Service.call ∧
        result.asyncCalls = served.map Service.record ∧
        roots e'.journal = c :: served.flatMap Service.frames := by
  have hcut := execute_within_whole hw (hcosts.mono fun _ h => h.costs) hasks h
  have heffects := pending_effects_of_asks (hasks.mono fun _ h => h.1).within (.within _ hcosts) hcut
  exact heffects

/-! ### A call that is relayed -/

def emit (n : UInt8) : Program Unit := Program.request (.log (.bytes [n]) (.tuple []) (.bytes []))

/-- Asks for a later call of the same contract. -/
def callLater (e : Entry) : Program Unit :=
  Program.request (.callAsync
    { receiver := .bytes e.call.receiver, function := .text "later", gas := .int 2500 } (.text "told") (.tuple []))

/-- Emits an entry and queues a call, and then fails. -/
def flop (e : Entry) : Program Value := do
  emit 0
  callLater e
  Program.signal "flop"

/-- Emits an entry before and after a nested call on all gas that is left, which fails, and queues a call in
between. -/
def relay (e : Entry) : Program Value := do
  emit 1
  let left ← Program.request .gasLeft
  let _ ← Program.request
    (.call .report { receiver := .bytes e.call.receiver, function := .text "flop", gas := left.value })
  callLater e
  emit 2
  return .nothing

def relayEngine : Engine where
  host := {
    registry := ⟨Table.ofList [("sample", ⟨Table.ofList [
      ("relay", { name := "relay", method := "relay", body := relay }),
      ("flop", { name := "flop", method := "flop", body := flop }),
      ("later", { name := "later", method := "later", body := fun _ => do emit 3; return .nothing }),
      ("told", {
        name := "told", method := "told", isCallback := true, isBounded := false
        body := fun _ => do emit 4; return .nothing })]⟩)]⟩
    settings := {} }
  world := { accounts := Table.ofList [([1], { code := some "sample" })] }

def relayCall : Call := .unpaid [2] [1] "relay" 20000

theorem relayEngine_all {p : Endpoint → Prop} (hrelay : p { name := "relay", method := "relay", body := relay })
    (hflop : p { name := "flop", method := "flop", body := flop })
    (hlater : p { name := "later", method := "later", body := fun _ => do emit 3; return .nothing })
    (htold : p {
      name := "told", method := "told", isCallback := true, isBounded := false
      body := fun _ => do emit 4; return .nothing }) : relayEngine.host.registry.All p := by
  refine .of_entries fun c hc e he => ?_
  obtain rfl := List.mem_singleton.1 hc
  rcases List.mem_cons.1 he with rfl | he
  · exact hrelay
  rcases List.mem_cons.1 he with rfl | he
  · exact hflop
  rcases List.mem_cons.1 he with rfl | he
  · exact hlater
  · obtain rfl := List.mem_singleton.1 he
    exact htold

theorem relayEngine_isWhole : relayEngine.world.IsWhole := by
  refine ⟨fun e he => ?_, nofun⟩
  obtain rfl := List.mem_singleton.1 he
  rintro (_ | _) <;> exact ⟨0, rfl⟩

theorem relayEngine_asks : relayEngine.host.registry.AsksGiven
    (Call.MayTell Amount.IsWhole fun a => True → a.IsWhole) fun r => r.AsksWhole ∧ (True → r.SendsWhole) := by
  have hemit : ∀ n told, (emit n).AsksGiven told fun r => r.AsksWhole ∧ (True → r.SendsWhole) :=
    fun _ _ => .request ⟨trivial, fun _ => trivial⟩
  have hlater : ∀ e told, (callLater e).AsksGiven told fun r => r.AsksWhole ∧ (True → r.SendsWhole) :=
    fun _ _ => .request ⟨nofun, fun _ => trivial⟩
  refine relayEngine_all (fun e => ?_) (fun e => ?_) (fun _ => ?_) fun _ => ?_
  · refine .bind (hemit 1 _) fun _ => .request_bind ⟨trivial, fun _ => trivial⟩ fun left hleft => ?_
    obtain ⟨n, rfl⟩ : left.IsWhole := hleft
    refine .bind (.request ⟨nofun, fun _ => trivial⟩) fun _ => ?_
    exact .bind (hlater e _) fun _ => .bind (hemit 2 _) fun _ => trivial
  · exact .bind (hemit 0 _) fun _ => .bind (hlater e _) fun _ => trivial
  · exact .bind (hemit 3 _) fun _ => trivial
  · exact .bind (hemit 4 _) fun _ => trivial

theorem relayEngine_costs : relayEngine.host.registry.All Endpoint.CostsWhole := relayEngine_all nofun nofun nofun nofun

/-- The entry of the frame that failed is missing, and so is the call that it queued. -/
theorem pending_effects_relay :
    ∃ result, (execute relayCall relayEngine).1 = .ok result ∧
      result.logs.map Log.endpoint = [[1], [2], [3], [4]] ∧ result.asyncCalls.length = 1 ∧
      (roots (execute relayCall relayEngine).2.journal).map Call.function = ["relay", "later", "told"] := by
  have hok : (execute relayCall relayEngine).1.toOption.isSome := by decide +kernel
  have hlogs : (survivingLogs (execute relayCall relayEngine).2.journal).map Log.endpoint =
      [[1], [2], [3], [4]] := by decide +kernel
  have hcalls : (survivingCalls (execute relayCall relayEngine).2.journal).length = 1 := by
    decide +kernel
  rcases hr : execute relayCall relayEngine with ⟨e | result, e'⟩
  · rw [hr] at hok
    cases hok
  · obtain ⟨hl, served, hs, hrecords, -⟩ :=
      pending_effects True (fun _ => relayEngine_isWhole) relayEngine_costs relayEngine_asks hr
    rw [hr] at hlogs hcalls
    refine ⟨result, rfl, hl ▸ hlogs, ?_, ?_⟩
    · rw [hrecords, List.length_map, ← List.length_map Service.call, ← hs]
      exact hcalls
    · rw [← hr]
      decide +kernel

end Engine

end TrialLedger
