import TrialLedger.Proofs.Engine.Levels
import TrialLedger.Proofs.Engine.Stable
import TrialLedger.Proofs.Engine.Unbounded

/-! Transactions end. The queue of deferred calls is worked off one call at a time until it is empty,
although calls and their callbacks put more into it. A call that is queued lies one asynchronous level
below the frame that queues it, so there are no more rounds of calls than there are such levels. -/

namespace TrialLedger

open Level (Within opened)

namespace Drain

open TrialLedger.Action (Matches Preserves)

variable {launch launch' : Launch} {stack : List Call} {d d' : Drain} {settings : Settings} {k : Nat}
  {l : List AsyncCall}

/-! ### Queues without a bound -/

/-- The first call in the queue runs, and so on until none is left or one breaks off. -/
inductive Empties (launch : Launch) : Drain → Except Stop Unit × Drain → Prop where
  | done {d : Drain} : d.backlog = [] → Empties launch d (.ok (), d)
  | broke {d d' : Drain} {a : AsyncCall} {r : List AsyncCall} {e : Stop} : d.backlog = a :: r →
    runAsync launch a { d with backlog := r } = (.error e, d') → Empties launch d (.error e, d')
  | next {d d' : Drain} {a : AsyncCall} {r : List AsyncCall} {o : Except Stop Unit × Drain} :
    d.backlog = a :: r → runAsync launch a { d with backlog := r } = (.ok (), d') →
      Empties launch d' o → Empties launch d o

abbrev OnStack (stack : List Call) (d : Drain) : Prop := d.stage.stack = stack

/-- What launches do that agree on the stack of a drain, a deferred call does in either of them. -/
theorem runAsync_agree (hl : launch.Agree stack launch') (a : AsyncCall) :
    Matches (OnStack stack) (runAsync launch a) (runAsync launch' a) := by
  have hstack : launch.KeepsStage fun stage => stage.stack = stack := fun f movesValue stage hs =>
    (hl f movesValue stage hs).2
  exact runAsync_matches (fun _ hd => (hl _ _ _ hd).1)
    (.of_preserves (runFrame_keeps hstack _) fun _ hd => hd) fun _ _ _ hd => (hl _ _ _ hd).1

theorem runAsync_onStack (hl : launch.Agree stack launch') (a : AsyncCall) :
    Preserves (OnStack stack) (runAsync launch a) :=
  runAsync_keeps (fun f movesValue stage hs => (hl f movesValue stage hs).2) a

/-- The queue is worked off in one way. -/
theorem Empties.unique (hl : launch.Agree stack launch') {o o' : Except Stop Unit × Drain}
    (h : Empties launch d o) (h' : Empties launch' d o') (hd : d.stage.stack = stack) : o = o' := by
  induction h generalizing o' with
  | done hnil =>
    cases h' with
    | done _ => rfl
    | broke hcons _ | next hcons _ _ => cases hnil.symm.trans hcons
  | @broke d d₁ a r e hcons hrun =>
    have heq := runAsync_agree hl a { d with backlog := r } hd
    cases h' with
    | done hnil => cases hnil.symm.trans hcons
    | broke hcons' hrun' =>
      obtain ⟨rfl, rfl⟩ := List.cons.inj (hcons.symm.trans hcons')
      cases hrun.symm.trans (heq.trans hrun')
      rfl
    | next hcons' hrun' _ =>
      obtain ⟨rfl, rfl⟩ := List.cons.inj (hcons.symm.trans hcons')
      cases hrun.symm.trans (heq.trans hrun')
  | @next d d₁ a r o hcons hrun _ ih =>
    have heq := runAsync_agree hl a { d with backlog := r } hd
    cases h' with
    | done hnil => cases hnil.symm.trans hcons
    | broke hcons' hrun' =>
      obtain ⟨rfl, rfl⟩ := List.cons.inj (hcons.symm.trans hcons')
      cases hrun.symm.trans (heq.trans hrun')
    | next hcons' hrun' hrest =>
      obtain ⟨rfl, rfl⟩ := List.cons.inj (hcons.symm.trans hcons')
      cases hrun.symm.trans (heq.trans hrun')
      have hstack := runAsync_onStack hl a { d with backlog := r } hd
      rw [hrun] at hstack
      exact ih hrest hstack

/-! ### Rounds -/

/-- No frame is open. Calls `l` are left of a round at the given asynchronous depth, and what was queued
meanwhile is due one level below. -/
structure AtRest (settings : Settings) (k : Nat) (l : List AsyncCall) (d : Drain) : Prop where
  stage : d.stage.Levelled settings
  stack_eq : d.stage.stack = []
  backlog : ∃ new, d.backlog = l ++ new ∧ ∀ a ∈ new, a.DueBelow settings k

theorem runFrame_atRest (hl : launch.KeepsLevels settings 0) {f : Frame} (hf : f.asyncDepth = k)
    (hk : k ≤ settings.maxAsyncDepth) : Preserves (AtRest settings k l) (runFrame launch f) := by
  intro d h
  have hopened : opened d.stage.journal = [] := by
    rw [← List.length_eq_zero_iff, h.stage.length_eq, h.stack_eq]
    rfl
  have hbegins : f.Begins settings d.stage := by
    refine ⟨h.stage.length_eq.symm, hf ▸ hk, fun inner hinner => ?_⟩
    rw [hopened] at hinner
    cases hinner
  have hexit := hl f true d.stage (by rw [h.stack_eq]; rfl) h.stage hbegins
  obtain ⟨new, hnew, hdue⟩ := h.backlog
  have hrest : ∀ {d' : Drain}, d'.stage = (launch f true d.stage).stage →
      d'.backlog = d.backlog ++ (launch f true d.stage).queued → AtRest settings k l d' := by
    intro d' hs hb
    refine ⟨hs ▸ hexit.stage, by rw [hs, hexit.stack_eq, h.stack_eq], _, by rw [hb, hnew, List.append_assoc], ?_⟩
    intro a ha
    exact (List.mem_append.1 ha).elim (hdue a) (hf ▸ hexit.queued a)
  unfold runFrame
  dsimp only
  split
  · rename_i done ho
    exact hrest rfl (by rw [Exit.queued, ho])
  · rename_i e ho
    exact hrest rfl (by rw [Exit.queued, ho, List.append_nil])
  · rename_i e ho
    exact hrest rfl (by rw [Exit.queued, ho, List.append_nil])

theorem runAsync_atRest (hl : launch.KeepsLevels settings 0) {a : AsyncCall} (ha : a.asyncDepth = k)
    (hk : k ≤ settings.maxAsyncDepth) : Preserves (AtRest settings k l) (runAsync launch a) :=
  Action.Leads.preserves <| runAsync_leads_of
    (.of_preserves (runFrame_atRest hl (f := ⟨a.call, a.budget, a.asyncDepth, none⟩) ha hk) fun _ h => h)
    (fun _ _ _ h => h)
    (fun _ p c _ => .of_preserves
      (runFrame_atRest hl (f := ⟨c, p.2.remaining, a.asyncDepth, some p.1⟩) ha hk) fun _ h => h)
    (fun _ _ h => h)
    (fun _ _ => .of_preserves (.zoom fun _ h => ⟨h.stage, h.stack_eq, h.backlog⟩) fun _ h => h)
    fun _ _ _ h => ⟨h.stage, h.stack_eq, h.backlog⟩

/-- A round is a part of working off the queue: after it the queue is the next round, or a call has broken
off. -/
theorem runRound_empties (hl : launch.KeepsLevels settings 0) (hk : k ≤ settings.maxAsyncDepth)
    (hround : ∀ a ∈ l, a.asyncDepth = k) (h : AtRest settings k l d) :
    (∃ d', runRound launch l d = (.ok (), d') ∧ AtRest settings k [] d' ∧
      ∀ o, Empties launch d' o → Empties launch d o) ∨
    ∃ e d', runRound launch l d = (.error e, d') ∧ d'.stage.Levelled settings ∧
      Empties launch d (.error e, d') := by
  induction l generalizing d with
  | nil => exact .inl ⟨d, rfl, h, fun _ ho => ho⟩
  | cons a r ih =>
    obtain ⟨new, hnew, hdue⟩ := h.backlog
    have hstart : AtRest settings k r { d with backlog := r ++ new } :=
      ⟨h.stage, h.stack_eq, new, rfl, hdue⟩
    have hrest := runAsync_atRest hl (hround a List.mem_cons_self) hk _ hstart
    have hstep : runRound launch (a :: r) d = (runAsync launch a >>= fun _ => runRound launch r)
        { d with backlog := r ++ new } := by
      have htail : d.backlog.drop 1 = r ++ new := by rw [hnew]; rfl
      rw [← htail]
      rfl
    rw [hstep]
    rcases hrun : runAsync launch a { d with backlog := r ++ new } with ⟨e | u, d₁⟩
    · rw [hrun] at hrest
      rw [Action.bind_error hrun]
      exact .inr ⟨e, d₁, rfl, hrest.stage, .broke hnew hrun⟩
    · rw [hrun] at hrest
      rw [Action.bind_ok hrun]
      rcases ih (fun a' ha' => hround a' (List.mem_cons_of_mem _ ha')) hrest with
        ⟨d', hr, hd', hempties⟩ | ⟨e, d', hr, hlevels, hempties⟩
      · exact .inl ⟨d', hr, hd', fun o ho => .next hnew hrun (hempties o ho)⟩
      · exact .inr ⟨e, d', hr, hlevels, .next hnew hrun hempties⟩

/-- As many rounds as there are levels below the given one work off the queue. -/
theorem run_empties (hl : launch.KeepsLevels settings 0) {rounds : Nat}
    (hk : k + rounds = settings.maxAsyncDepth) (h : AtRest settings k [] d) :
    Empties launch d (run launch rounds d) ∧ (run launch rounds d).2.stage.Levelled settings := by
  induction rounds generalizing k d with
  | zero =>
    obtain ⟨new, hnew, hdue⟩ := h.backlog
    refine ⟨.done ?_, h.stage⟩
    rw [hnew, List.nil_append]
    refine List.eq_nil_iff_forall_not_mem.2 fun a ha => ?_
    obtain ⟨hbelow, hmax⟩ := hdue a ha
    omega
  | succ rounds ih =>
    obtain ⟨new, hnew, hdue⟩ := h.backlog
    rw [List.nil_append] at hnew
    rw [run_succ_apply]
    by_cases he : d.backlog.isEmpty
    · rw [if_pos he]
      exact ⟨.done (List.isEmpty_iff.1 he), h.stage⟩
    · rw [if_neg he]
      have hround : AtRest settings (k + 1) d.backlog d :=
        ⟨h.stage, h.stack_eq, [], (List.append_nil _).symm, nofun⟩
      rcases runRound_empties hl (by omega) (fun a ha => (hdue a (hnew ▸ ha)).1) hround with
        ⟨d', hr, hd', hempties⟩ | ⟨e, d', hr, hlevels, hempties⟩
      · rw [Action.bind_ok hr]
        obtain ⟨hrest, hlevels⟩ := ih (k := k + 1) (by omega) hd'
        exact ⟨hempties _ hrest, hlevels⟩
      · rw [Action.bind_error hr]
        exact ⟨hempties, hlevels⟩

end Drain

namespace Engine

variable {e : Engine} {c : Call} {o o' : Except Stop TransactionResult × Engine}

/-! ### Transactions without a bound -/

/-- A transaction ends: its own frame does, and the queue that it leaves is worked off. -/
inductive Executes (e : Engine) (c : Call) : Except Stop TransactionResult × Engine → Prop where
  | busy : e.active ≠ [] → Executes e c (.error (.fault .engineBusy), e)
  | failed {exit : Exit} {reason : Failure} : e.active = [] →
    Frame.Ends e.host ⟨c, c.gasLimit, 0, none⟩ true ⟨e.world, [], []⟩ exit →
      exit.outcome = .error (.failure reason) →
        Executes e c (.ok (.failed reason c.gasLimit), e.after exit.stage [])
  | broke {exit : Exit} {reason : Fault} : e.active = [] →
    Frame.Ends e.host ⟨c, c.gasLimit, 0, none⟩ true ⟨e.world, [], []⟩ exit →
      exit.outcome = .error (.fault reason) →
        Executes e c (.error (.fault reason), e.after exit.stage [])
  | drained {exit : Exit} {done : Committed} {launch : Launch} {r : Except Stop Unit} {d : Drain} :
    e.active = [] → Frame.Ends e.host ⟨c, c.gasLimit, 0, none⟩ true ⟨e.world, [], []⟩ exit →
      exit.outcome = .ok done → launch.Serves e.host [] →
        Drain.Empties launch ⟨exit.stage, done.queued, exit.gas, done.logs, []⟩ (r, d) →
          Executes e c (r >>= fun _ => d.result done.data, e.after d.stage d.backlog)

theorem Executes.unique (h : Executes e c o) (h' : Executes e c o') : o = o' := by
  cases h with
  | busy hbusy =>
    cases h' with
    | busy _ => rfl
    | failed hidle | broke hidle | drained hidle => exact absurd hidle hbusy
  | failed hidle hends ho =>
    cases h' with
    | busy hbusy => exact absurd hidle hbusy
    | failed _ hends' ho' =>
      obtain rfl := hends.unique hends'
      cases ho.symm.trans ho'
      rfl
    | broke _ hends' ho' | drained _ hends' ho' =>
      obtain rfl := hends.unique hends'
      cases ho.symm.trans ho'
  | broke hidle hends ho =>
    cases h' with
    | busy hbusy => exact absurd hidle hbusy
    | broke _ hends' ho' =>
      obtain rfl := hends.unique hends'
      cases ho.symm.trans ho'
      rfl
    | failed _ hends' ho' | drained _ hends' ho' =>
      obtain rfl := hends.unique hends'
      cases ho.symm.trans ho'
  | drained hidle hends ho hserves hempties =>
    cases h' with
    | busy hbusy => exact absurd hidle hbusy
    | drained _ hends' ho' hserves' hempties' =>
      obtain rfl := hends.unique hends'
      cases ho.symm.trans ho'
      cases hempties.unique (Frame.serves_agree hserves hserves') hempties' hends.stack_eq
      rfl
    | failed _ hends' ho' | broke _ hends' ho' =>
      obtain rfl := hends.unique hends'
      cases ho.symm.trans ho'

/-- The frame of a transaction's own call ends within the limits. -/
theorem outer_levelled (hidle : e.active = []) (c : Call) :
    (e.outer c).Levelled e.host.settings ⟨c, c.gasLimit, 0, none⟩ ⟨e.world, [], []⟩ := by
  unfold outer
  rw [hidle]
  exact Frame.launch_keepsLevels e.host e.room (Nat.zero_add _) _ _ _ rfl ⟨rfl, Level.within_nil⟩
    ⟨rfl, Nat.zero_le _, nofun⟩

/-- The queue that a transaction's own call leaves is worked off, within the limits. -/
theorem drain_empties (hidle : e.active = []) {c : Call} {done : Committed} (ho : (e.outer c).outcome = .ok done) :
    let start : Drain := ⟨(e.outer c).stage, done.queued, (e.outer c).gas, done.logs, []⟩
    let last := Drain.run e.launch e.host.settings.maxAsyncDepth start
    Drain.Empties e.launch start last ∧ last.2.stage.Levelled e.host.settings := by
  have hlevels := outer_levelled hidle c
  have hrest : Drain.AtRest e.host.settings 0 []
      ⟨(e.outer c).stage, done.queued, (e.outer c).gas, done.logs, []⟩ := by
    refine ⟨hlevels.stage, hlevels.stack_eq, done.queued, rfl, fun a ha => hlevels.queued a ?_⟩
    rwa [Exit.queued, ho]
  exact Drain.run_empties (Frame.launch_keepsLevels e.host e.room (Nat.zero_add _)) (Nat.zero_add _) hrest

/-- A transaction ends as it is computed, and within the limits. -/
theorem executes_execute (hidle : e.active = []) (c : Call) :
    Executes e c (execute c e) ∧ Within e.host.settings (execute c e).2.journal := by
  have hserves : e.launch.Serves e.host [] := Frame.launch_serves e.host e.room (Nat.zero_add _)
  have hlevels := outer_levelled hidle c
  have hends : Frame.Ends e.host ⟨c, c.gasLimit, 0, none⟩ true ⟨e.world, [], []⟩ (e.outer c) := by
    unfold outer
    rw [hidle]
    exact hserves _ _ _ rfl
  have houter : e.launch ⟨c, c.gasLimit, 0, none⟩ true ⟨e.world, e.active, []⟩ = e.outer c := rfl
  unfold execute
  rw [if_neg (by simp [hidle])]
  dsimp only
  rw [houter]
  rcases ho : (e.outer c).outcome with (f | f) | done
  · exact ⟨.failed hidle hends ho, hlevels.stage.within⟩
  · exact ⟨.broke hidle hends ho, hlevels.stage.within⟩
  · obtain ⟨hempties, hend⟩ := drain_empties hidle ho
    exact ⟨.drained hidle hends ho hserves hempties, hend.within⟩

/-- Every transaction ends, in one way alone. In its journal every frame begins on top of those that are
open, on the asynchronous level of the one that calls it and on none beyond the last; code runs in no
frame beyond the deepest level; and a call is queued for the next asynchronous level, where there is one.
On the last level a request to queue a call fails with status 4 and changes nothing. -/
theorem execute_terminates (e : Engine) (c : Call) :
    (∀ o, Executes e c o ↔ o = execute c e) ∧
    (e.active = [] → Within e.host.settings (execute c e).2.journal) ∧
    ∀ launch f s r callback arguments, e.host.settings.maxAsyncDepth ≤ f.asyncDepth →
      ∃ reason : Failure, reason.status.code = 4 ∧
        Frame.answer e.host launch f (.callAsync r callback arguments) s = (.error (.failure reason), s) := by
  have hexecutes : Executes e c (execute c e) := by
    by_cases hidle : e.active = []
    · exact (executes_execute hidle c).1
    · unfold execute
      rw [if_pos (by simp [hidle])]
      exact .busy hidle
  refine ⟨fun o => ⟨fun h => h.unique hexecutes, ?_⟩, fun hidle => (executes_execute hidle c).2, ?_⟩
  · rintro rfl
    exact hexecutes
  · intro launch f s r callback arguments hdepth
    refine ⟨.asyncDepthExceeded, rfl, ?_⟩
    change Frame.callAsync e.host f r callback arguments s = _
    unfold Frame.callAsync
    rw [if_pos hdepth]
    rfl

/-! ### A contract that never has enough -/

/-- Calls its own contract again, and asks for one more call later on, whatever comes of either. -/
def insist (_ : Entry) : Program Value :=
  let again : CallRequest := { receiver := .bytes [1], function := .text "go" }
  .ask (.call .report again) fun _ => .ask (.callAsync again (.text "back") (.tuple [])) fun _ => .done .nothing

/-- An engine without costs, with one level below the first of either kind. -/
def insistingEngine : Engine where
  host := {
    registry := ⟨Table.ofList [("sample", ⟨Table.ofList [
      ("go", { name := "go", method := "go", body := insist }),
      ("back", { name := "back", method := "back", isCallback := true, isBounded := false, body := insist })]⟩)]⟩
    settings := { frameCost := 0, storageWriteCost := 0, logCost := 0, maxCallDepth := 1, maxAsyncDepth := 1 } }
  world := { accounts := Table.ofList [([1], { code := some "sample" })] }

def insistingCall : Call := .unpaid [2] [1] "go" 10000

/-- How often code has begun to run. -/
def started (journal : List Event) : Nat :=
  journal.countP fun
    | .started => true
    | _ => false

/-- Code begins to run ten times: in a frame of the transaction and one below it, and likewise for the two
calls that these queue and for both callbacks. -/
theorem execute_terminates_insisting :
    let journal := (execute insistingCall insistingEngine).2.journal
    started journal = 10 ∧ Within insistingEngine.host.settings journal ∧
      Executes insistingEngine insistingCall (execute insistingCall insistingEngine) ∧
      ∀ s, ∃ reason : Failure, reason.status.code = 4 ∧
        Frame.answer insistingEngine.host insistingEngine.launch ⟨insistingCall, 10000, 1, none⟩
          (.callAsync { receiver := .bytes [1] } (.text "back") (.tuple [])) s = (.error (.failure reason), s) := by
  obtain ⟨hends, hwithin, hrefused⟩ := execute_terminates insistingEngine insistingCall
  exact ⟨by decide +kernel, hwithin rfl, (hends _).2 rfl, fun s => hrefused _ _ s _ _ _ (by decide)⟩

end Engine

end TrialLedger
