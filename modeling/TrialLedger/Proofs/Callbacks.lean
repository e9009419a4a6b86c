import TrialLedger.Proofs.Crash
import TrialLedger.Proofs.Engine.Dispatch
import TrialLedger.Proofs.PendingEffects

/-! Callbacks. The deferred calls of a transaction are served one by one, and each that names a callback has it
called at once: the destination tells the contract that issued the call how it has ended. A callback that fails
takes back what it did itself and nothing else. Endpoints of callbacks run in no other frames, and in these
frames no other endpoints do. -/

namespace TrialLedger

/-- How a frame is reported to a callback or in a record; a fault is not. -/
def Exit.report? (exit : Exit) : Option CallResult :=
  match exit.outcome with
  | .ok done => some (.ok done.data)
  | .error (.failure f) => some (.failed f)
  | .error (.fault _) => none

/-- A deferred call that has been served. -/
structure Delivery where
  call : AsyncCall
  /-- The stage on which the call began. -/
  start : Stage
  result : CallResult
  /-- The callback, if there was one, and how it has ended. -/
  callback : Option (Call × CallResult)

/-- A callback call tells the contract that issued a deferred call of its result. -/
structure AsyncCall.Informs (a : AsyncCall) (result : CallResult) (left : Amount) (c : Call) : Prop where
  kind_eq : c.kind = .asyncCallback
  sender_eq : c.sender = a.call.receiver
  receiver_eq : c.receiver = a.call.sender
  function_eq : a.callback.asText.map Text.plain = .ok c.function
  hasValue_eq : c.hasValue = false
  gasLimit_eq : left.value.asNatural = .ok (c.gasLimit : Int)
  success : result.isSuccess = true →
    c.arguments = Codec.encodeNat result.status.code :: result.data ++ a.callbackArguments
  failure : result.isSuccess = false → ∃ message, result.message.textBytes = .ok message ∧
    c.arguments = Codec.encodeNat result.status.code :: message :: a.callbackArguments

namespace Delivery

variable (launch : Launch) (d : Delivery)

/-- The end of the deferred call's own frame. -/
def exit : Exit := launch d.call.frame true d.start

/-- The end of the callback's frame. -/
def answer (c : Call) : Exit :=
  launch (d.call.callbackFrame c (d.result, (d.exit launch).gas)) true (d.exit launch).stage

/-- The last of the frames, with which the call has been served. -/
def last : Exit :=
  match d.callback with
  | none => d.exit launch
  | some (c, _) => d.answer launch c

/-- The entries of the frames that have not failed. -/
def logs : List Log :=
  (d.exit launch).logs ++ d.callback.elim [] fun p => (d.answer launch p.1).logs

/-- What the frames that have not failed have queued. -/
def queued : List AsyncCall :=
  (d.exit launch).queued ++ d.callback.elim [] fun p => (d.answer launch p.1).queued

def record : AsyncRecord where
  destination := d.call.call.receiver
  function := d.call.call.function
  result := d.result
  callback := d.call.callback
  callbackResult := d.callback.map Prod.snd

/-- The call has been run, and its callback after it if it names one. A callback that fails has left nothing. -/
structure Served : Prop where
  report_eq : (d.exit launch).report? = some d.result
  isSome_callback : d.callback.isSome = Drain.hasCallback d.call
  informs : ∀ p ∈ d.callback, d.call.Informs d.result (d.exit launch).gas.remaining p.1
  answered : ∀ p ∈ d.callback, (d.answer launch p.1).report? = some p.2
  undone : ∀ p ∈ d.callback, ∀ stop, (d.answer launch p.1).outcome = .error stop →
    (d.answer launch p.1).stage.world = (d.exit launch).stage.world ∧ (d.answer launch p.1).logs = [] ∧
      (d.answer launch p.1).queued = []

end Delivery

/-- The deliveries that follow the own frame of a transaction, each on the stage that the one before has left. It
is always the call in front of the queue that is served. -/
inductive Deliveries (launch : Launch) (outer : Exit) : List Delivery → Stage → List AsyncCall → Prop where
  | none : Deliveries launch outer [] outer.stage outer.queued
  | next {l : List Delivery} {d : Delivery} {waiting : List AsyncCall} :
    Deliveries launch outer l d.start (d.call :: waiting) → d.Served launch →
      Deliveries launch outer (l ++ [d]) (d.last launch).stage (waiting ++ d.queued launch)

/-! ### One deferred call -/

namespace Drain

variable {launch : Launch} {a : AsyncCall} {d d' : Drain} {f : Frame} {c : Call}

theorem runFrame_report {p : CallResult × Meter} (h : runFrame launch f d = (.ok p, d')) :
    (launch f true d.stage).report? = some p.1 := by
  unfold runFrame at h
  dsimp only at h
  rw [Exit.report?]
  rcases ho : (launch f true d.stage).outcome with (e | e) | done
  all_goals
    rw [ho] at h
    cases h
  · rfl
  · rfl

theorem callbackCall_informs {result : CallResult} {gas : Amount} (h : callbackCall a result gas = .ok c) :
    a.Informs result gas c := by
  unfold callbackCall at h
  obtain ⟨told, htold, hcall⟩ : ∃ told, payload result = .ok told ∧ CallRequest.call
      { receiver := .bytes a.call.sender, function := a.callback } a.call []
      (Codec.encodeNat result.status.code :: told ++ a.callbackArguments) gas.value .asyncCallback = .ok c := by
    cases hp : payload result with
    | error e =>
      rw [hp] at h
      cases h
    | ok told =>
      rw [hp] at h
      exact ⟨told, rfl, Action.mapError_eq_ok.1 h⟩
  obtain ⟨hs, hr, hn, ht, hf, harguments, hk⟩ := CallRequest.call_eq_ok hcall
  have hnative : (0 : Int) = c.native := Except.ok.inj hn
  have htransfers : [] = c.transfers := Except.ok.inj ht
  refine ⟨hk, hs, (Except.ok.inj hr).symm, hf, ?_, CallRequest.gasLimit_of_call hcall, fun hok => ?_, fun hfail => ?_⟩
  · rw [Call.hasValue, ← htransfers, Int.natCast_eq_zero.1 hnative.symm]
    rfl
  · rw [payload, if_pos hok] at htold
    rw [harguments, Except.ok.inj htold]
  · rw [payload, hfail] at htold
    cases hm : result.message.textBytes with
    | error g =>
      rw [hm] at htold
      cases htold
    | ok message =>
      rw [hm] at htold
      obtain rfl : [message] = told := Except.ok.inj htold
      exact ⟨message, rfl, harguments⟩

/-- A frame that stops hands nothing over. -/
theorem undone_of_error (hl : launch.Undoes) {stage : Stage} {stop : Stop}
    (h : (launch f true stage).outcome = .error stop) : (launch f true stage).stage.world = stage.world ∧
      (launch f true stage).logs = [] ∧ (launch f true stage).queued = [] := by
  refine ⟨hl f true stage stop h, ?_, ?_⟩
  · rw [Exit.logs, h]
  · rw [Exit.queued, h]

/-- What is left to do for a call that has been served is to pay its gas back and to record it. -/
theorem settle_eq_ok {left : Amount} {r : AsyncRecord} {u : Unit} (h : (do
      Action.zoom Drain.meter (fun d m => { d with meter := m }) (Meter.refund (Meter.full left))
      Action.modify fun d => { d with records := d.records ++ [r] } : Action Drain Unit) d = (.ok u, d')) :
    ∃ m, d' = { d with meter := m, records := d.records ++ [r] } := by
  obtain ⟨_, d₁, hrefund, hrecord⟩ := Action.bind_eq_ok.1 h
  obtain ⟨m, -, rfl⟩ := Action.zoom_eq.1 hrefund
  cases hrecord
  exact ⟨m, rfl⟩

/-- A deferred call that does not break off is served. -/
theorem runAsync_eq_ok (hl : launch.Undoes) {u : Unit} (h : runAsync launch a d = (.ok u, d')) :
    ∃ v : Delivery, v.call = a ∧ v.start = d.stage ∧ v.Served launch ∧ ∃ m,
      d' = ⟨(v.last launch).stage, d.backlog ++ v.queued launch, m, d.logs ++ v.logs launch,
        d.records ++ [v.record]⟩ := by
  obtain ⟨⟨result, gas⟩, d₁, hown, h⟩ := Action.bind_eq_ok.1 h
  have hreport := runFrame_report hown
  obtain ⟨hgas, rfl⟩ := runFrame_eq_ok hown
  dsimp only at h hgas
  subst hgas
  by_cases hname : hasCallback a = true
  · rw [if_pos hname] at h
    obtain ⟨c, d₂, hc, h⟩ := Action.bind_eq_ok.1 h
    rw [Action.ofExcept_apply] at hc
    obtain ⟨hcall, rfl⟩ := Prod.mk.inj hc
    obtain ⟨⟨told, gas'⟩, d₃, hanswer, h⟩ := Action.bind_eq_ok.1 h
    have hreport' := runFrame_report hanswer
    obtain ⟨hgas', rfl⟩ := runFrame_eq_ok hanswer
    dsimp only at h hgas'
    subst hgas'
    obtain ⟨m, rfl⟩ := settle_eq_ok h
    let v : Delivery := ⟨a, d.stage, result, some (c, told)⟩
    refine ⟨v, rfl, rfl, ⟨hreport, hname.symm, ?_, ?_, ?_⟩, m, ?_⟩
    · rintro _ ⟨⟩
      exact callbackCall_informs hcall
    · rintro _ ⟨⟩
      exact hreport'
    · rintro _ ⟨⟩ stop hstop
      exact undone_of_error hl hstop
    · have hlogs : d.logs ++ v.logs launch = d.logs ++ (v.exit launch).logs ++ (v.answer launch c).logs :=
        (List.append_assoc ..).symm
      have hqueued : d.backlog ++ v.queued launch =
          d.backlog ++ (v.exit launch).queued ++ (v.answer launch c).queued := (List.append_assoc ..).symm
      rw [hlogs, hqueued]
      rfl
  · rw [if_neg hname] at h
    obtain ⟨m, rfl⟩ := settle_eq_ok h
    have hnone : false = hasCallback a := (Bool.eq_false_of_not_eq_true hname).symm
    let v : Delivery := ⟨a, d.stage, result, none⟩
    refine ⟨v, rfl, rfl, ⟨hreport, hnone, nofun, nofun, nofun⟩, m, ?_⟩
    have hlogs : v.logs launch = (v.exit launch).logs := List.append_nil _
    have hqueued : v.queued launch = (v.exit launch).queued := List.append_nil _
    rw [hlogs, hqueued]
    rfl

/-! ### The queue -/

/-- So many calls have been delivered since the own frame of the transaction, and are recorded. -/
structure Delivering (launch : Launch) (outer : Exit) (l : List Delivery) (d : Drain) : Prop where
  deliveries : Deliveries launch outer l d.stage d.backlog
  records : d.records = l.map Delivery.record
  logs : d.logs = outer.logs ++ l.flatMap (Delivery.logs launch)

theorem runAsync_delivering (hl : launch.Undoes) {outer : Exit} {l : List Delivery} {r : List AsyncCall} {u : Unit}
    (h : Delivering launch outer l d) (hd : d.backlog = a :: r)
    (hrun : runAsync launch a { d with backlog := r } = (.ok u, d')) : ∃ v, Delivering launch outer (l ++ [v]) d' := by
  obtain ⟨v, rfl, hstart, hserved, m, rfl⟩ := runAsync_eq_ok hl hrun
  refine ⟨v, ?_, ?_, ?_⟩
  · apply Deliveries.next _ hserved
    rw [hstart, ← hd]
    exact h.deliveries
  · rw [List.map_append, ← h.records]
    rfl
  · rw [List.flatMap_append, List.flatMap_singleton, ← List.append_assoc, ← h.logs]

theorem Advances.delivering (hl : launch.Undoes) {outer : Exit} {l : List Delivery} (hadvances : Advances launch d d')
    (h : Delivering launch outer l d) : ∃ l', Delivering launch outer l' d' := by
  induction hadvances generalizing l with
  | none => exact ⟨l, h⟩
  | next hcons hrun _ ih =>
    obtain ⟨v, hv⟩ := runAsync_delivering hl h hcons hrun
    exact ih hv

end Drain

/-! ### Code that runs -/

open Visit (opened)
open TrialLedger.Frame (HasEndpoint)

/-- Code begins to run in an open frame. If that frame is for a callback, it is the one in which a call was
delivered, and it lies in no other frame. -/
def Answers (host : Host) (w : World) (launch : Launch) (l : List Delivery) (past : List Event) : Prop :=
  ∃ v outer, opened past = v :: outer ∧ HasEndpoint host w v.call ∧ (v.call.kind = .asyncCallback →
    outer = [] ∧ ∃ d ∈ l, ∃ p ∈ d.callback, v.call = p.1 ∧ (d.exit launch).stage.journal <:+ past ∧
      .started :: past <:+ (d.last launch).stage.journal)

/-- Between two frames of a transaction: nothing is open, and the journal tells of all code that has run and of the
issuers of the calls that wait. -/
structure Pausing (host : Host) (w : World) (launch : Launch) (l : List Delivery) (stage : Stage)
    (waiting : List AsyncCall) : Prop where
  explained : Explained host w stage.world stage.journal
  opened_eq : opened stage.journal = []
  answers : ∀ past, .started :: past <:+ stage.journal → Answers host w launch l past
  issued : ∀ a ∈ waiting, Issued host w stage.journal a

variable {host : Host} {w : World} {launch : Launch} {l l' : List Delivery} {d : Delivery} {stage : Stage}
  {waiting : List AsyncCall} {past : List Event}

theorem Answers.mono (h : Answers host w launch l past) (hl : l ⊆ l') : Answers host w launch l' past := by
  obtain ⟨v, outer, hopened, hendpoint, hkind⟩ := h
  refine ⟨v, outer, hopened, hendpoint, fun hv => ?_⟩
  obtain ⟨hnil, d, hd, hrest⟩ := hkind hv
  exact ⟨hnil, d, hl hd, hrest⟩

namespace Pausing

/-- A frame runs from one pause to the next. If it is for a callback, that is delivered with it. -/
theorem frame (hx : launch.Explains host w) (hd : launch.Dispatches host w) (h : Pausing host w launch l stage waiting)
    (f : Frame) (hl : l ⊆ l') (hf : f.call.kind = .asyncCallback → ∃ d ∈ l', ∃ p ∈ d.callback, f.call = p.1 ∧
      (d.exit launch).stage = stage ∧ d.last launch = launch f true stage) :
    Pausing host w launch l' (launch f true stage).stage (waiting ++ (launch f true stage).queued) := by
  obtain ⟨⟨hopened, events, hj, -⟩, hexplained⟩ := hx f true stage h.explained
  have htraffic := hd f true stage h.explained
  have hsuffix : stage.journal <:+ (launch f true stage).stage.journal := ⟨events, hj.symm⟩
  refine ⟨hexplained, hopened.trans h.opened_eq, fun past hpast => ?_, fun a ha => ?_⟩
  -- what has begun before this frame is known already, and all else has begun in it
  · rcases suffix_cases hpast hsuffix with hold | hnew
    · exact (h.answers past hold).mono hl
    · obtain ⟨v, outer, hv, hendpoint, hcall⟩ := htraffic.started past hpast hnew
      rw [h.opened_eq, List.append_nil] at hv
      refine ⟨v, outer, hv, hendpoint, fun hkind => ?_⟩
      rcases hcall with ⟨hnil, hcall⟩ | ⟨-, hne⟩
      · obtain ⟨d, hmem, p, hp, heq, hexit, hlast⟩ := hf (hcall ▸ hkind)
        refine ⟨hnil, d, hmem, p, hp, hcall.trans heq, ?_, ?_⟩
        · rwa [hexit]
        · rwa [hlast]
      · exact absurd hkind hne
  · rcases List.mem_append.1 ha with ha | ha
    · exact (h.issued a ha).mono hsuffix
    · exact htraffic.queued a ha

/-- A call that waits is served, and then its callback is. -/
theorem delivery (hx : launch.Explains host w) (hd : launch.Dispatches host w)
    (h : Pausing host w launch l d.start (d.call :: waiting)) :
    Pausing host w launch (l ++ [d]) (d.last launch).stage (waiting ++ d.queued launch) := by
  obtain ⟨hissued, hwaiting⟩ := List.forall_mem_cons.1 h.issued
  have hstart : Pausing host w launch l d.start waiting := ⟨h.explained, h.opened_eq, h.answers, hwaiting⟩
  have hown := hstart.frame hx hd d.call.frame (List.subset_append_left l [d]) fun hkind => by
    cases hissued.kind_eq.symm.trans hkind
  have hmem : d ∈ l ++ [d] := List.mem_append_right _ List.mem_cons_self
  obtain ⟨call, start, result, callback⟩ := d
  cases callback with
  | none =>
    rw [Delivery.queued, Option.elim_none, List.append_nil]
    exact hown
  | some p =>
    rw [Delivery.queued, Option.elim_some, ← List.append_assoc]
    exact hown.frame hx hd _ (List.Subset.refl _) fun _ => ⟨_, hmem, p, rfl, rfl, rfl, rfl⟩

/-- From the own frame of a transaction on, through all that is delivered. -/
theorem deliveries (hx : launch.Explains host w) (hd : launch.Dispatches host w) {outer : Exit}
    (houter : Pausing host w launch [] outer.stage outer.queued) (h : Deliveries launch outer l stage waiting) :
    Pausing host w launch l stage waiting := by
  induction h with
  | none => exact houter
  | next _ _ ih => exact ih.delivery hx hd

/-- The calls that are served have been queued before. -/
theorem issued_of_deliveries (hx : launch.Explains host w) (hd : launch.Dispatches host w) {outer : Exit}
    (houter : Pausing host w launch [] outer.stage outer.queued) (h : Deliveries launch outer l stage waiting) :
    ∀ d ∈ l, Issued host w d.start.journal d.call := by
  induction h with
  | none => exact List.forall_mem_nil _
  | next h _ ih =>
    have hissued := (houter.deliveries hx hd h).issued _ List.mem_cons_self
    exact List.forall_mem_append.2 ⟨ih, List.forall_mem_singleton.2 hissued⟩

end Pausing

theorem Deliveries.served {outer : Exit} (h : Deliveries launch outer l stage waiting) : ∀ d ∈ l, d.Served launch := by
  induction h with
  | none => exact List.forall_mem_nil _
  | next _ hserved ih => exact List.forall_mem_append.2 ⟨ih, List.forall_mem_singleton.2 hserved⟩

namespace Engine

variable {e e' : Engine} {c : Call} {result : TransactionResult}

theorem idle_of_execute (h : execute c e = (.ok result, e')) : e.active = [] := by
  by_contra hbusy
  unfold execute at h
  rw [if_pos (by simp [hbusy])] at h
  cases h

/-- What a transaction does after its own frame, and how it reports that. -/
theorem execute_deliveries (h : execute c e = (.ok result, e')) :
    ∃ deliveries : List Delivery, Deliveries e.launch (e.outer c) deliveries e'.stage e'.backlog ∧
      (∃ own, (e.outer c).report? = some own ∧ result.status = own.status) ∧
      result.asyncCalls = deliveries.map Delivery.record ∧
      result.logs = (e.outer c).logs ++ deliveries.flatMap (Delivery.logs e.launch) := by
  rcases execute_cases h with ⟨f, ho, rfl, rfl⟩ | ⟨done, d, ho, hresult, rfl, hrun⟩
  · have hqueued : [] = (e.outer c).queued := by rw [Exit.queued, ho]
    have hlogs : [] = (e.outer c).logs := by rw [Exit.logs, ho]
    refine ⟨[], ?_, ⟨.failed f, ?_, rfl⟩, rfl, ?_⟩
    · show Deliveries e.launch (e.outer c) [] (e.outer c).stage []
      rw [hqueued]
      exact .none
    · rw [Exit.report?, ho]
    · rw [← hlogs]
      rfl
  · have hqueued : (e.outer c).queued = done.queued := by rw [Exit.queued, ho]
    have hlogs : (e.outer c).logs = done.logs := by rw [Exit.logs, ho]
    have hstart : Drain.Delivering e.launch (e.outer c) []
        ⟨(e.outer c).stage, done.queued, (e.outer c).gas, done.logs, []⟩ :=
      ⟨hqueued ▸ .none, rfl, hlogs ▸ (List.append_nil _).symm⟩
    have hempties := (drain_empties (idle_of_execute h) ho).1.advances
    rw [hrun] at hempties
    obtain ⟨-, hadvances, -⟩ | ⟨stop, _, _, _, hbroke, -⟩ := hempties
    · obtain ⟨l, hl⟩ := hadvances.delivering (Frame.launch_undoes e.host e.room) hstart
      obtain ⟨used, -, rfl⟩ := Drain.result_eq_ok hresult
      exact ⟨l, hl.deliveries, ⟨.ok done.data, by rw [Exit.report?, ho], rfl⟩, hl.records, hl.logs⟩
    · cases hbroke

/-- When the own frame of a transaction that is no callback has ended, no callback has run. -/
theorem outer_pausing (e : Engine) (hc : c.kind ≠ .asyncCallback) :
    Pausing e.host e.world e.launch [] (e.outer c).stage (e.outer c).queued := by
  have hbegin : Pausing e.host e.world e.launch [] ⟨e.world, e.active, []⟩ [] :=
    ⟨.refl _ _ _, rfl, fun _ hpast => absurd (List.suffix_nil.1 hpast) nofun, List.forall_mem_nil _⟩
  exact hbegin.frame (Frame.launch_explains e.host e.world e.room) (Frame.launch_dispatches e.host e.world e.room)
    ⟨c, c.gasLimit, 0, none⟩ (List.Subset.refl _) fun hkind => absurd hkind hc

/-- A transaction that comes to a result, and is no callback itself, has run its own call and then the calls that
wait in the queue, one after the other. Each that names a callback is followed by that callback at once. A callback
that fails leaves nothing behind, and the status is that of the own call whatever the callbacks do. An endpoint
that begins to run is that of a callback exactly in the frame in which one is delivered. -/
theorem callbacks_delivered (hc : c.kind ≠ .asyncCallback) (h : execute c e = (.ok result, e')) :
    ∃ deliveries : List Delivery, Deliveries e.launch (e.outer c) deliveries e'.stage e'.backlog ∧
      (∃ own, (e.outer c).report? = some own ∧ result.status = own.status) ∧
      result.asyncCalls = deliveries.map Delivery.record ∧
      result.logs = (e.outer c).logs ++ deliveries.flatMap (Delivery.logs e.launch) ∧
      (∀ d ∈ deliveries, d.Served e.launch ∧ Issued e.host e.world d.start.journal d.call) ∧
      ∀ past, .started :: past <:+ e'.journal → ∃ v outer endpoint, opened past = v :: outer ∧
        Frame.resolve e.host v.call e.world = .ok (some endpoint) ∧
        (endpoint.isCallback = true ↔ outer = [] ∧ ∃ d ∈ deliveries, ∃ p ∈ d.callback, v.call = p.1 ∧
          (d.exit e.launch).stage.journal <:+ past ∧ .started :: past <:+ (d.last e.launch).stage.journal) := by
  have hx := Frame.launch_explains e.host e.world e.room
  have hd := Frame.launch_dispatches e.host e.world e.room
  have houter := outer_pausing e hc
  obtain ⟨deliveries, hdeliveries, hown, hrecords, hlogs⟩ := execute_deliveries h
  have hserved := hdeliveries.served
  have hissued := houter.issued_of_deliveries hx hd hdeliveries
  refine ⟨deliveries, hdeliveries, hown, hrecords, hlogs, fun d hmem => ⟨hserved d hmem, hissued d hmem⟩,
    fun past hpast => ?_⟩
  obtain ⟨v, outer, hopened, ⟨endpoint, hresolve⟩, hkind⟩ := (houter.deliveries hx hd hdeliveries).answers past hpast
  refine ⟨v, outer, endpoint, hopened, hresolve, ?_⟩
  rw [Frame.isCallback_of_resolve hresolve, decide_eq_true_iff]
  refine ⟨hkind, fun ⟨_, d, hmem, p, hp, heq, _⟩ => ?_⟩
  rw [heq]
  exact ((hserved d hmem).informs p hp).kind_eq

/-- The call that is relayed has its callback. -/
theorem callbacks_delivered_relay :
    relayCall.kind ≠ .asyncCallback ∧ ∃ result e' deliveries, execute relayCall relayEngine = (.ok result, e') ∧
      Deliveries relayEngine.launch (relayEngine.outer relayCall) deliveries e'.stage e'.backlog ∧
      deliveries.map (fun d => (d.call.call.function, d.callback.isSome)) = [(.plain "later", true)] := by
  have hkind : relayCall.kind ≠ .asyncCallback := by decide
  have htold : ((execute relayCall relayEngine).1.toOption.map fun r =>
      r.asyncCalls.map fun a => (a.function, a.callbackResult.isSome)) = some [(.plain "later", true)] := by
    decide +kernel
  rcases hr : execute relayCall relayEngine with ⟨stop | result, e'⟩
  · rw [hr] at htold
    cases htold
  · rw [hr] at htold
    obtain ⟨deliveries, hdeliveries, -, hrecords, -⟩ := callbacks_delivered hkind hr
    refine ⟨hkind, result, e', deliveries, rfl, hdeliveries, ?_⟩
    have hmap : result.asyncCalls.map (fun a => (a.function, a.callbackResult.isSome)) = [(.plain "later", true)] :=
      Option.some.inj htold
    rw [← hmap, hrecords, List.map_map]
    refine List.map_congr_left fun d _ => ?_
    show _ = (d.call.call.function, (d.callback.map Prod.snd).isSome)
    rw [Option.isSome_map]

end Engine

end TrialLedger
