import TrialLedger.Proofs.Engine.Matches
import TrialLedger.Proofs.Engine.Stable
import TrialLedger.Proofs.PaymentTold

/-! What programs are told of amounts. While a transaction runs, the amounts of gas that it answers with are of one
kind, and so are those that accounts hold, as long as contracts keep to such amounts in turn. What a program would do
with an answer of another kind therefore does not matter: an engine whose programs are cut off at such answers runs
like the engine itself. So what is known of contracts that keep to a kind of requests whatever they are told is known
of those, too, that keep to them as long as they are told the truth. -/

namespace TrialLedger

/-- The answers that a program may be given in the frame of the call. What is left of gas and what accounts hold are
amounts of the given kinds, and of its payment it is told what the call says. -/
def Call.MayTell (gas held : Amount → Prop) (c : Call) : (r : Request) → Except Stop r.Answer → Prop
  | .gasLeft, .ok a => gas a
  | .balance .., .ok a => held a
  | .payment query, .ok v => CallValue.outcome c query = .ok v
  | _, _ => True

/-! ### Kinds of amounts -/

/-- Of a meter that holds such an amount, the request sets such an amount aside. -/
def CallRequest.Reserves (gas : Amount → Prop) (r : CallRequest) : Prop :=
  ∀ {left b n}, gas left → (r.asked left).asNatural = .ok n → Amount.ofValue? (r.asked left) = some b → gas b

/-- Amounts of the kind are all that meters ever hold as long as programs keep to the given requests. -/
structure Meter.Regime (gas : Amount → Prop) (asks : Request → Prop) : Prop where
  nat : ∀ n : Nat, gas n
  minus : ∀ {a b left}, gas a → gas b → a.lt b = false → a.minus b = .ok left → gas left
  plus : ∀ {a b sum}, gas a → gas b → a.plus b = .ok sum → gas sum
  call : ∀ {mode r}, asks (.call mode r) → r.Reserves gas
  callAsync : ∀ {r callback arguments}, asks (.callAsync r callback arguments) → r.Reserves gas

/-- All that can be looked up in the world are amounts of the kind. -/
def World.Holds (held : Amount → Prop) (w : World) : Prop :=
  held 0 ∧ ∀ place a, w.find? place = .ok (some a) → ∀ x, held (a.amount x)

namespace Meter.Regime

variable {gas : Amount → Prop} {asks : Request → Prop}

/-- What holds of gas in a certain case. -/
theorem given {p : Prop} (h : p → Regime gas asks) : Regime (fun a => p → gas a) (fun r => p → asks r) where
  nat n hp := (h hp).nat n
  minus ha hb hlt hm hp := (h hp).minus (ha hp) (hb hp) hlt hm
  plus ha hb hs hp := (h hp).plus (ha hp) (hb hp) hs
  call hr _ _ _ hleft hn hb hp := (h hp).call (hr hp) (hleft hp) hn hb
  callAsync hr _ _ _ hleft hn hb hp := (h hp).callAsync (hr hp) (hleft hp) hn hb

theorem mono {asks' : Request → Prop} (h : Regime gas asks) (ha : ∀ r, asks' r → asks r) : Regime gas asks' :=
  ⟨h.nat, h.minus, h.plus, fun hr => h.call (ha _ hr), fun hr => h.callAsync (ha _ hr)⟩

theorem charge (h : Regime gas asks) {a : Amount} {m : Meter} (ha : gas a) (hm : gas m.remaining) :
    gas (Meter.charge a m).2.remaining := by
  unfold Meter.charge
  split
  · exact h.nat 0
  · rename_i hlt
    unfold withdraw
    split
    · exact h.minus hm ha (Bool.eq_false_of_not_eq_true hlt) ‹_›
    · exact hm

end Meter.Regime

theorem Registry.All.costs_given {gas : Amount → Prop} {p : Prop} {r : Registry} (h : p → r.All (Endpoint.Costs gas)) :
    r.All (Endpoint.Costs fun a => p → gas a) :=
  fun _ _ _ _ hc he v hv a ha hp => h hp hc he v hv a ha

theorem World.Stable.given {asks : Request → Prop} {J : World → Prop} {p : Prop} (h : p → Stable asks J) :
    Stable (fun r => p → asks r) fun w => p → J w where
  move c w hw hp := (h hp).move c w (hw hp)
  transfer hr sender n _ ha w hw hp := (h hp).transfer (hr hp) sender n ha w (hw hp)
  store address key value hw hp := (h hp).store address key value (hw hp)

theorem World.Stable.mono {asks asks' : Request → Prop} {J : World → Prop} (h : Stable asks J)
    (ha : ∀ r, asks' r → asks r) : Stable asks' J :=
  ⟨h.move, fun hr => h.transfer (ha _ hr), h.store⟩

/-! ### Frames on amounts of a kind -/

/-- A frame has left gas of the kind and a world with the property. -/
structure Exit.Steady (gas : Amount → Prop) (J : World → Prop) (exit : Exit) : Prop where
  left : gas exit.gas.remaining
  queued : ∀ a ∈ exit.queued, gas a.budget
  world : J exit.stage.world

/-- Frames on gas of the kind leave such gas, and keep the property of worlds. -/
def Launch.Steady (gas : Amount → Prop) (J : World → Prop) (launch : Launch) : Prop :=
  ∀ f movesValue stage, gas f.budget → J stage.world → (launch f movesValue stage).Steady gas J

namespace Frame

open TrialLedger.Action (Leads Matches Preserves)

variable {gas held : Amount → Prop} {J : World → Prop} {asks : Request → Prop} {host : Host} {launch : Launch} {f : Frame}

/-- The frame has gas of the kind and finds a world with the property, and its handles hold what its call pays. -/
structure Steady (gas : Amount → Prop) (J : World → Prop) (f : Frame) (s : Running) : Prop where
  left : gas s.gas.remaining
  queued : ∀ a ∈ s.queued, gas a.budget
  world : J s.stage.world
  informed : Informed f.call s

theorem charge_steady (hg : Meter.Regime gas asks) {a : Amount} (ha : gas a) :
    Preserves (Steady gas J f) (charge a) :=
  fun _ h => ⟨hg.charge ha h.left, h.queued, h.world, h.informed⟩

theorem note_steady (e : Event) : Preserves (Steady gas J f) (note e) :=
  fun _ h => ⟨h.left, h.queued, h.world, h.informed⟩

theorem onWorld_steady {x : Action World Unit} (hx : Preserves J x) : Preserves (Steady gas J f) (onWorld x) :=
  fun _ h => ⟨h.left, h.queued, hx _ h.world, h.informed⟩

/-- The gas that is set aside for a call is of the kind, and what is left is. -/
theorem prepare_steady (hg : Meter.Regime gas asks) {r : CallRequest} (hr : r.Reserves gas) (kind : CallKind) :
    Leads (Steady gas J f) (fun p s => Steady gas J f s ∧ gas p.2) (Steady gas J f) (prepare f r kind) := by
  intro s h
  refine ⟨?_, fun e t he => by rwa [prepare_eq_error he]⟩
  rintro ⟨c, b⟩ t hp
  obtain ⟨hbuild, hb, hreserve⟩ := prepare_steps hp
  obtain ⟨-, _, _, _, -, -, -, hcall⟩ := build_steps hbuild
  have hgas := hr h.left (CallRequest.gasLimit_of_call hcall) hb
  obtain ⟨hlt, left, hleft, rfl⟩ := reserve_eq_ok hreserve
  exact ⟨⟨hg.minus h.left hgas hlt hleft, h.queued, h.world, h.informed⟩, hgas⟩

theorem refund_steady (hg : Meter.Regime gas asks) {m : Meter} (hm : gas m.remaining) :
    Preserves (Steady gas J f) (refund m) := by
  intro s h
  rcases hr : refund m s with ⟨e | u, t⟩
  · rw [(refund_eq_error hr).2]
    exact h
  · obtain ⟨left, hleft, rfl⟩ := refund_eq_ok hr
    exact ⟨hg.plus h.left hm hleft, h.queued, h.world, h.informed⟩

theorem runChild_steady (hg : Meter.Regime gas asks) (hl : launch.Steady gas J) (c : Call) {b : Amount} (hb : gas b)
    (movesValue : Bool) : Preserves (Steady gas J f) (runChild launch f c b movesValue) := by
  intro s h
  have hexit := hl ⟨c, b, f.asyncDepth, none⟩ movesValue s.stage hb h.world
  rcases hr : runChild launch f c b movesValue s with ⟨o, t⟩
  rcases runChild_cases hr with ⟨_, -, -, rfl⟩ | ⟨left, hleft, ⟨done, ho, -, rfl⟩ | ⟨_, -, -, rfl⟩⟩
  · exact ⟨h.left, h.queued, hexit.world, h.informed⟩
  · have hqueued := hexit.queued
    rw [Exit.queued, ho] at hqueued
    exact ⟨hg.plus h.left hexit.left hleft, List.forall_mem_append.2 ⟨h.queued, hqueued⟩, hexit.world, h.informed⟩
  · exact ⟨hg.plus h.left hexit.left hleft, h.queued, hexit.world, h.informed⟩

theorem keepsCalls_steady (hg : Meter.Regime gas asks) (hs : World.Stable asks J) (hl : launch.Steady gas J)
    {r : CallRequest} (hr : r.Reserves gas) :
    KeepsCalls f r launch (Steady gas J f) (fun _ b s => Steady gas J f s ∧ gas b) where
  prepare := prepare_steady hg hr
  move c _ s h := ⟨onWorld_steady (hs.move c) s h.1, h.2⟩
  child c _ movesValue := .given fun hb => .of_preserves (runChild_steady hg hl c hb movesValue) fun _ h => h
  refund _ b := .given fun hb => .of_preserves (refund_steady hg (m := Meter.full b) hb) fun _ h => h
  weaken h := h.1

theorem keeps_steady (hg : Meter.Regime gas asks) (hs : World.Stable asks J) (hl : launch.Steady gas J) :
    Keeps (Steady gas J f) asks host launch f where
  payments query _ h :=
    have hwithstands : Withstands (Informed f.call) launch := informed_withstands
    ⟨h.left, h.queued, h.world, hwithstands.payments query h.informed⟩
  started := note_steady _
  charge n := charge_steady hg (hg.nat n)
  store _ _ := .bind (onWorld_steady (.modify fun _ h => hs.store _ _ _ h)) fun _ => note_steady _
  log _ := .bind (.modify fun _ h => ⟨h.left, h.queued, h.world, h.informed⟩) fun _ => note_steady _
  send hr n _ ha := onWorld_steady (hs.transfer hr _ n ha)
  call mode _ hr := (keepsCalls_steady hg hs hl (hg.call hr)).makeCall mode
  callAsync hr := (keepsCalls_steady hg hs hl (hg.callAsync hr)).callAsync _ _ fun _ _ _ _ _ _ h =>
    ⟨h.1.left, List.forall_mem_append.2 ⟨h.1.queued, List.forall_mem_singleton.2 h.2⟩, h.1.world, h.1.informed⟩

/-! ### Answers -/

theorem pureFault_eq_ok {α : Type} {r : Except Fault α} {a : α} {s t : Running} (h : pureFault r s = (.ok a, t)) :
    r = .ok a := by
  cases r with
  | ok b => exact congrArg Except.ok (Except.ok.inj (congrArg Prod.fst h))
  | error e => cases h

theorem balance_held {s : Running} (hw : s.stage.world.Holds held) {address nonce : Value} {token : Token} {a : Amount}
    (h : (balance address token nonce s).1 = .ok a) : held a := by
  rcases hb : balance address token nonce s with ⟨x, t⟩
  rw [hb] at h
  subst h
  obtain ⟨w, t₁, hworld, hlook⟩ := Action.bind_eq_ok.1 hb
  obtain ⟨found, t₂, hfound, hread⟩ := Action.bind_eq_ok.1 hlook
  obtain ⟨⟩ := hworld
  have hplace : s.stage.world.find? (.ofValue address) = .ok found := pureFault_eq_ok hfound
  split at hread
  · obtain ⟨⟩ := hread
    exact hw.1
  · obtain ⟨⟩ := hread
    exact hw.2 _ _ hplace .native
  · obtain ⟨k, _, -, hheld⟩ := Action.bind_eq_ok.1 hread
    obtain ⟨⟩ := hheld
    exact hw.2 _ _ hplace (.issued _ k)

/-- A frame on gas of a kind, in a world that holds amounts of a kind, tells its program what it may be told. -/
theorem Steady.tells {s : Running} (h : Steady gas J f s) (hJ : ∀ w, J w → w.Holds held) (r : Request) :
    f.call.MayTell gas held r (answer host launch f r s).1 := by
  cases r with
  | gasLeft => exact h.left
  | balance address token nonce =>
    cases ha : (answer host launch f (.balance address token nonce) s).1 with
    | error e => trivial
    | ok a => exact balance_held (hJ _ h.world) ha
  | payment query =>
    obtain ⟨owner, asked, hconsistent⟩ := h.informed
    have htold := (CallValue.answer_apply hconsistent query).1
    change f.call.MayTell gas held (.payment query) (CallValue.answer query s.payments).1
    rw [htold]
    split
    · trivial
    · cases ho : CallValue.outcome f.call query with
      | error e => trivial
      | ok v => exact ho
  | _ => trivial

/-! ### Frames -/

section

variable (hg : Meter.Regime gas asks) (hs : World.Stable asks J) (hJ : ∀ w, J w → w.Holds held)
  (hc : host.registry.All (Endpoint.Costs gas)) (hr : host.registry.AsksGiven (Call.MayTell gas held) asks)

include hg hs hJ hc hr

theorem body_steady (hl : launch.Steady gas J) (movesValue : Bool) :
    Preserves (Steady gas J f) (body host launch f movesValue) :=
  body_preserves (fun he ha => charge_steady hg (entryCost_of hg.nat hc he ha)) (onWorld_steady (hs.move _))
    (fun he => (keeps_steady hg hs hl).runEndpoint_given (fun r _ h => h.tells hJ r)
      (of_resolve hr he ⟨f.call, f.asyncResult⟩)) movesValue

end

theorem entered_steady {stage : Stage} (hb : gas f.budget) (hw : J stage.world) : Steady gas J f (f.entered stage) :=
  ⟨hb, nofun, hw, ⟨_, false, CallValue.enter_consistent f.call _⟩⟩

theorem launchBody_steady {run : Frame → Bool → Action Running (List Bytes)}
    (hb : ∀ f movesValue, Preserves (Steady gas J f) (run f movesValue)) : (launchBody run).Steady gas J := by
  intro f movesValue stage hbudget hw
  have h := hb f movesValue _ (entered_steady hbudget hw)
  rcases hr : run f movesValue (f.entered stage) with ⟨e | data, t⟩
  · rw [launchBody_of_error hr]
    rw [hr] at h
    exact ⟨h.left, nofun, hw⟩
  · rw [launchBody_of_ok hr]
    rw [hr] at h
    exact ⟨h.left, h.queued, h.world⟩

section

variable (hg : Meter.Regime gas asks) (hs : World.Stable asks J) (hJ : ∀ w, J w → w.Holds held)
  (hc : host.registry.All (Endpoint.Costs gas)) (hr : host.registry.AsksGiven (Call.MayTell gas held) asks)

include hg hs hJ hc hr

/-- Frames stay on amounts of their kinds at any depth. -/
theorem launch_steady : ∀ room, (Frame.launch host room).Steady gas J
  | 0 => launchBody_steady fun _ _ => .stop _
  | room + 1 => launchBody_steady fun _ movesValue => body_steady hg hs hJ hc hr (launch_steady room) movesValue

/-- Frames of hosts that are alike end alike on such amounts. -/
theorem launch_alike {host' : Host} (hh : host.Alike (Call.MayTell gas held) host') (room : Nat) :
    ∀ f movesValue stage, gas f.budget → J stage.world →
      Frame.launch host room f movesValue stage = Frame.launch host' room f movesValue stage := by
  induction room with
  | zero => exact fun _ _ _ _ _ => rfl
  | succ room ih =>
    intro f movesValue stage hb hw
    have hl := launch_steady hg hs hJ hc hr room
    have hcall : ∀ {mode r}, asks (.call mode r) → Matches (Steady gas J f)
        (makeCall (Frame.launch host room) f r mode) (makeCall (Frame.launch host' room) f r mode) :=
      fun {mode _} ha => makeCall_matches (keepsCalls_steady hg hs hl (hg.call ha))
        (fun _ _ _ _ h => ih _ _ _ h.2 h.1.world) mode
    have hbody : Matches (Steady gas J f) (body host (Frame.launch host room) f movesValue)
        (body host' (Frame.launch host' room) f movesValue) :=
      body_matches hh (fun he ha => charge_steady hg (entryCost_of hg.nat hc he ha)) (onWorld_steady (hs.move _))
        (fun he hle => runEndpoint_matches (keeps_steady hg hs hl) (answer_matches hh.settings hcall)
          (fun r _ h => h.tells hJ r) (of_resolve hr he) hle) movesValue
    exact launchBody_congr (hbody _ (entered_steady hb hw))

end

end Frame

/-! ### Deferred calls -/

namespace Drain

open TrialLedger.Action (Leads Matches)

variable {gas : Amount → Prop} {J : World → Prop} {launch launch' : Launch}

/-- The calls that wait hold gas of the kind, and the world has the property. -/
structure Steady (gas : Amount → Prop) (J : World → Prop) (d : Drain) : Prop where
  backlog : ∀ a ∈ d.backlog, gas a.budget
  world : J d.stage.world

theorem runFrame_steady (hl : launch.Steady gas J) {f : Frame} (hf : gas f.budget) :
    Leads (Steady gas J) (fun p d => Steady gas J d ∧ gas p.2.remaining) (fun _ => True) (runFrame launch f) := by
  refine fun d h => ⟨fun p t hx => ?_, fun _ _ _ => trivial⟩
  have hexit := hl f true d.stage hf h.world
  obtain ⟨hgas, rfl⟩ := runFrame_eq_ok hx
  refine ⟨⟨List.forall_mem_append.2 ⟨h.backlog, hexit.queued⟩, hexit.world⟩, ?_⟩
  rw [hgas]
  exact hexit.left

theorem runAsync_steady (hl : launch.Steady gas J) {a : AsyncCall} (ha : gas a.budget) :
    Leads (Steady gas J) (fun _ => Steady gas J) (fun _ => True) (runAsync launch a) := by
  have hcallback : ∀ (p : CallResult × Meter) c, Leads (fun d => Steady gas J d ∧ gas p.2.remaining)
      (fun _ => Steady gas J) (fun _ => True) (runFrame launch ⟨c, p.2.remaining, a.asyncDepth, some p.1⟩) := by
    intro p c
    have hrun : gas p.2.remaining → Leads (Steady gas J) (fun p d => Steady gas J d ∧ gas p.2.remaining) (fun _ => True)
        (runFrame launch ⟨c, p.2.remaining, a.asyncDepth, some p.1⟩) := fun hp => runFrame_steady hl hp
    exact (Leads.given hrun).mono (fun _ h => h) (fun _ _ h => h.1) fun _ h => h
  have hrefund : ∀ m : Meter, Leads (Steady gas J) (fun _ => Steady gas J) (fun _ => True)
      (Action.zoom Drain.meter (fun d m => { d with meter := m }) (Meter.refund m)) :=
    fun _ => .of_preserves (.zoom fun _ h => ⟨h.backlog, h.world⟩) fun _ _ => trivial
  exact runAsync_leads_of (runFrame_steady hl (f := ⟨a.call, a.budget, a.asyncDepth, none⟩) ha) (fun _ _ _ h => h.1)
    (fun _ p c _ => hcallback p c) (fun _ _ _ => trivial) (fun _ q => hrefund (Meter.full q.2))
    fun _ _ _ h => ⟨h.backlog, h.world⟩

theorem runRound_steady (hl : launch.Steady gas J) {l : List AsyncCall} (hgas : ∀ a ∈ l, gas a.budget) :
    Leads (Steady gas J) (fun _ => Steady gas J) (fun _ => True) (runRound launch l) :=
  runRound_leads_of (I := fun _ => Steady gas J) (H := fun _ _ => Steady gas J)
    (fun _ _ _ _ h => ⟨fun a ha => h.backlog a (List.mem_of_mem_drop ha), h.world⟩) (fun _ _ ha => runAsync_steady hl ha)
    hgas

section

variable (hl : launch.Steady gas J) (heq : ∀ f movesValue stage, gas f.budget → J stage.world →
  launch f movesValue stage = launch' f movesValue stage)

include hl heq

theorem runRound_alike {l : List AsyncCall} (hgas : ∀ a ∈ l, gas a.budget) :
    Matches (Steady gas J) (runRound launch l) (runRound launch' l) := by
  induction l with
  | nil => exact .refl _
  | cons a r ih =>
    obtain ⟨ha, hr⟩ := List.forall_mem_cons.1 hgas
    have htaken : Leads (Steady gas J) (fun _ => Steady gas J) (fun _ => True)
        (Action.modify fun d => { d with backlog := d.backlog.drop 1 }) :=
      .of_apply (fun _ => rfl) fun d h => ⟨fun a ha => h.backlog a (List.mem_of_mem_drop ha), h.world⟩
    have hcall : Matches (Steady gas J) (runAsync launch a) (runAsync launch' a) :=
      runAsync_matches (fun _ h => heq _ _ _ ha h.world)
        (runFrame_steady hl (f := ⟨a.call, a.budget, a.asyncDepth, none⟩) ha) fun _ _ _ h => heq _ _ _ h.2 h.1.world
    exact (Matches.refl _).bind htaken fun _ => hcall.bind (runAsync_steady hl ha) fun _ => ih hr

/-- The queue is worked off alike by launches that run frames alike. -/
theorem run_alike (rounds : Nat) : Matches (Steady gas J) (run launch rounds) (run launch' rounds) := by
  induction rounds with
  | zero => exact .refl _
  | succ rounds ih =>
    intro d h
    rw [run_succ_apply, run_succ_apply]
    split
    · rfl
    · exact ((runRound_alike hl heq h.backlog).bind (runRound_steady hl h.backlog) fun _ => ih) d h

end

end Drain

/-! ### Programs that are cut off -/

open Classical in
/-- The program up to the first answer that it may not be told; there it breaks off. -/
noncomputable def Program.within {α : Type} (told : (r : Request) → Except Stop r.Answer → Prop) : Program α → Program α
  | done a => done a
  | stop e => stop e
  | ask r next => ask r fun a => if told r a then (next a).within told else fault .engineBusy

section

variable {told : (r : Request) → Except Stop r.Answer → Prop} {asks : Request → Prop} {stops : Stop → Prop} {α : Type}

theorem Program.alike_within (p : Program α) : p.Alike told (p.within told) := by
  induction p with
  | done | stop => rfl
  | ask r next ih =>
    refine ⟨_, rfl, fun a ha => ?_⟩
    rw [if_pos ha]
    exact ih a

theorem Program.AsksGiven.within {p : Program α} (h : p.AsksGiven told asks) : (p.within told).Asks asks := by
  induction p with
  | done | stop => trivial
  | ask r next ih =>
    refine ⟨h.1, fun a => ?_⟩
    dsimp only
    split
    · exact ih a (h.2 a ‹_›)
    · trivial

theorem Program.RaisesGiven.within {p : Program α} (h : p.RaisesGiven told stops) (hbusy : stops (.fault .engineBusy)) :
    (p.within told).Raises stops := by
  induction p with
  | done => trivial
  | stop e => exact h
  | ask r next ih =>
    intro a ha
    dsimp only
    split
    · exact ih a (h a ‹_› ha)
    · exact hbusy

end

variable (told : Call → (r : Request) → Except Stop r.Answer → Prop)

noncomputable def Endpoint.within (e : Endpoint) : Endpoint :=
  { e with body := fun entry => (e.body entry).within (told entry.call) }

noncomputable def Contract.within (c : Contract) : Contract := ⟨c.endpoints.map (Endpoint.within told)⟩

noncomputable def Registry.within (r : Registry) : Registry := ⟨r.contracts.map (Contract.within told)⟩

noncomputable def Host.within (host : Host) : Host := { host with registry := host.registry.within told }

noncomputable def Engine.within (e : Engine) : Engine := { e with host := e.host.within told }

theorem Contract.find?_within (c : Contract) (name : Text) :
    (c.within told).find? name = (c.find? name).map (Endpoint.within told) := by
  cases name with
  | plain s => exact Table.get?_map _ _ s
  | ragged => rfl

theorem Registry.get?_within (r : Registry) (code : Text) :
    (r.within told).get? code = (r.get? code).map (Contract.within told) := by
  cases code with
  | plain s => exact Table.get?_map _ _ s
  | ragged => rfl

theorem Registry.All.within {p : Endpoint → Prop} {r : Registry} (h : r.All fun e => p (e.within told)) :
    (r.within told).All p := by
  intro code contract name endpoint hc he
  rw [get?_within] at hc
  obtain ⟨c, hcontract, rfl⟩ := Option.map_eq_some_iff.1 hc
  rw [Contract.find?_within] at he
  obtain ⟨e, hendpoint, rfl⟩ := Option.map_eq_some_iff.1 he
  exact h hcontract hendpoint

variable {told}

theorem Registry.AsksGiven.within {asks : Request → Prop} {r : Registry} (h : r.AsksGiven told asks) :
    (r.within told).Asks asks :=
  .within told fun _ _ _ _ hc he entry => (h hc he entry).within

theorem Registry.RaisesGiven.within {stops : Stop → Prop} {r : Registry} (h : r.RaisesGiven told stops)
    (hbusy : stops (.fault .engineBusy)) : (r.within told).Raises stops :=
  .within told fun _ _ _ _ hc he entry => (h hc he entry).within hbusy

variable (told)

theorem Frame.resolve_within (host : Host) (c : Call) (w : World) :
    resolve (host.within told) c w = (resolve host c w).map (Option.map (Endpoint.within told)) := by
  have hget : ∀ code, (host.within told).registry.get? code = _ := host.registry.get?_within told
  unfold resolve
  cases (w.account? c.receiver).bind Account.code with
  | none => rfl
  | some code =>
    dsimp only
    rw [hget]
    by_cases hf : c.function.isEmpty
    · rw [if_pos hf, if_pos hf]
      rfl
    rw [if_neg hf, if_neg hf]
    cases host.registry.get? code with
    | none => rfl
    | some contract =>
      dsimp only [Option.map_some]
      rw [Contract.find?_within]
      cases contract.find? c.function with
      | none => rfl
      | some e =>
        change (if e.isCallback = _ then _ else _) = Except.map _ (if e.isCallback = _ then _ else _)
        split <;> rfl

theorem Host.alike_within (host : Host) : host.Alike told (host.within told) where
  settings := rfl
  error h := by
    rw [Frame.resolve_within, h]
    rfl
  none h := by
    rw [Frame.resolve_within, h]
    rfl
  some {c w e} h := by
    rw [Frame.resolve_within, h]
    exact ⟨e.within told, rfl, rfl, fun entry => (e.body entry).alike_within⟩

/-! ### Engines -/

namespace Engine

variable {gas held : Amount → Prop} {J : World → Prop} {asks : Request → Prop} {e : Engine}
  (hg : Meter.Regime gas asks) (hs : World.Stable asks J) (hJ : ∀ w, J w → w.Holds held)
  (hc : e.host.registry.All (Endpoint.Costs gas)) (hr : e.host.registry.AsksGiven (Call.MayTell gas held) asks)

include hg hs hJ hc hr

/-- A transaction does not depend on what programs do with answers that they are never given. -/
theorem execute_within (hw : J e.world) (c : Call) :
    execute c (e.within (Call.MayTell gas held)) =
      ((execute c e).1, (execute c e).2.within (Call.MayTell gas held)) := by
  set e' := e.within (Call.MayTell gas held) with he'
  have hl : e.launch.Steady gas J := Frame.launch_steady hg hs hJ hc hr e.room
  have heq : ∀ f movesValue stage, gas f.budget → J stage.world →
      e.launch f movesValue stage = e'.launch f movesValue stage :=
    Frame.launch_alike hg hs hJ hc hr (e.host.alike_within _) e.room
  have hbudget : gas (c.gasLimit : Amount) := hg.nat c.gasLimit
  have houter : e'.launch ⟨c, c.gasLimit, 0, none⟩ true ⟨e'.world, e.active, []⟩ = e.outer c :=
    (heq _ true ⟨e.world, e.active, []⟩ hbudget hw).symm
  have hexit : (e.outer c).Steady gas J := hl ⟨c, c.gasLimit, 0, none⟩ true ⟨e.world, e.active, []⟩ hbudget hw
  have hqueued := hexit.queued
  have hown : e.launch ⟨c, c.gasLimit, 0, none⟩ true ⟨e.world, e.active, []⟩ = e.outer c := rfl
  have hactive : e'.active = e.active := rfl
  unfold execute
  rw [hactive]
  by_cases hidle : (!e.active.isEmpty) = true
  · rw [if_pos hidle, if_pos hidle]
  rw [if_neg hidle, if_neg hidle]
  dsimp only
  rw [houter, hown]
  rcases ho : (e.outer c).outcome with (f | f) | done
  · rfl
  · rfl
  · rw [Exit.queued, ho] at hqueued
    have hrun := Drain.run_alike hl heq e.host.settings.maxAsyncDepth
      ⟨(e.outer c).stage, done.queued, (e.outer c).gas, done.logs, []⟩ ⟨hqueued, hexit.world⟩
    have hdepth : e'.host.settings.maxAsyncDepth = e.host.settings.maxAsyncDepth := rfl
    dsimp only
    rw [hdepth, ← hrun]
    rfl

theorem perform_within (hw : J e.world) (o : Operation) :
    (e.within (Call.MayTell gas held)).perform o = (e.perform o).within (Call.MayTell gas held) := by
  have hrun : ∀ c, _ := execute_within hg hs hJ hc hr hw
  cases o with
  | execute c => exact congrArg Prod.snd (hrun c)
  | query c =>
    change (query c (e.within (Call.MayTell gas held))).2 = (query c e).2.within (Call.MayTell gas held)
    unfold query
    rw [hrun c]
    rfl

/-- Nor does any series of transactions and queries. -/
theorem foldl_perform_within (hw : J e.world) (os : List Operation) :
    os.foldl perform (e.within (Call.MayTell gas held)) =
      (os.foldl perform e).within (Call.MayTell gas held) := by
  induction os generalizing e with
  | nil => rfl
  | cons o os ih =>
    have hstep := perform_within hg hs hJ hc hr hw o
    have hkept : J (e.perform o).world := by
      have hcut := perform_keeps (e := e.within (Call.MayTell gas held)) hs hr.within o hw
      rwa [hstep] at hcut
    rw [List.foldl_cons, List.foldl_cons, hstep]
    exact ih (by rwa [perform_host]) (by rwa [perform_host]) hkept

/-- What every step keeps, every series of operations keeps, when contracts ask for such steps as long as they are
told the truth. -/
theorem foldl_perform_given (hw : J e.world) (os : List Operation) : J (os.foldl perform e).world := by
  have hcut : J (os.foldl perform (e.within (Call.MayTell gas held))).world :=
    foldl_perform_keeps hs os hr.within hw
  rwa [foldl_perform_within hg hs hJ hc hr hw] at hcut

end Engine

end TrialLedger
