import TrialLedger.Engine.Basic
import TrialLedger.Proofs.Engine.Honest
import TrialLedger.Proofs.World.Moved

/-! Failures stay inside. A nested call that reports a failure leaves the world, the logs and the
queued calls of its caller alone, apart from a payment that was made ahead, and one that reports a
success leaves all that the callee brought about. -/

namespace TrialLedger

namespace Frame

variable {host : Host} {room : Nat} {f : Frame} {c : Call} {b : Amount} {movesValue : Bool}
  {s s' : Running} {r : CallRequest} {result : CallResult} {data : List Bytes}

/-- The callee ran through from the given world, and its caller, which was in state `s`, has taken
over the callee's world, logs and queued calls in state `s'`. -/
def Absorbs (host : Host) (room : Nat) (f : Frame) (c : Call) (movesValue : Bool) (w : World)
    (s : Running) (data : List Bytes) (s' : Running) : Prop :=
  ∃ budget journal t,
    let callee : Frame := ⟨c, budget, f.asyncDepth, none⟩
    bodyAt host room callee movesValue (callee.entered ⟨w, s.stage.stack, journal⟩) = (.ok data, t) ∧
      s'.effects = (t.stage.world, s.logs ++ t.logs, s.queued ++ t.queued)

/-- How a nested call ends for the frame that made it. -/
theorem runChild_isolated {o : Except Stop (List Bytes)}
    (h : runChild (launch host room) f c b movesValue s = (o, s')) :
    (∃ data, o = .ok data ∧ Absorbs host room f c movesValue s.stage.world s data s') ∨
      (∃ e, o = .error e ∧ s'.effects = s.effects) ∨ ∃ g, o = .error (.fault g) := by
  have hcases := runChild_cases h
  rw [launch_eq] at hcases
  rcases hr : bodyAt host room ⟨c, b, f.asyncDepth, none⟩ movesValue
    (entered ⟨c, b, f.asyncDepth, none⟩ s.stage) with ⟨e | data, t⟩
  · rw [launchBody_of_error hr] at hcases
    rcases hcases with ⟨g, rfl, -⟩ | ⟨_, -, ⟨_, hx, -⟩ | ⟨e', -, rfl, rfl⟩⟩
    · exact .inr (.inr ⟨g, rfl⟩)
    · cases hx
    · exact .inr (.inl ⟨e', rfl, rfl⟩)
  · rw [launchBody_of_ok hr] at hcases
    rcases hcases with ⟨g, rfl, -⟩ | ⟨_, -, ⟨done, hx, rfl, rfl⟩ | ⟨_, hx, -⟩⟩
    · exact .inr (.inr ⟨g, rfl⟩)
    · cases hx
      exact .inl ⟨data, rfl, b, s.stage.journal, t, hr, rfl⟩
    · cases hx

/-- A report of a failure comes from a callee that was undone, and one of a success from a callee
that was taken over. -/
theorem report_isolated {check : Except Fault Unit}
    (h : report (runChild (launch host room) f c b movesValue) check s = (.ok result, s')) :
    (result.isSuccess = false → s'.effects = s.effects) ∧
      (host.registry.Raises Stop.IsHonest → result.isSuccess = true →
        Absorbs host room f c movesValue s.stage.world s result.data s') := by
  rcases report_eq_ok h with ⟨data, hx, rfl⟩ | ⟨e, hx, rfl⟩
  · rcases runChild_isolated hx with ⟨_, hd, ha⟩ | ⟨_, hd, -⟩ | ⟨_, hd⟩
    · cases hd
      exact ⟨nofun, fun _ _ => ha⟩
    · cases hd
    · cases hd
  · refine ⟨fun _ => ?_, fun hr hs => ?_⟩
    · rcases runChild_isolated hx with ⟨_, hd, -⟩ | ⟨_, -, he⟩ | ⟨_, hd⟩
      · cases hd
      · exact he
      · cases hd
    · have hhonest : (Stop.failure e).IsHonest :=
        runChild_honest (launch_honest hr room) c b movesValue s _ (congrArg Prod.fst hx)
      exact absurd (of_decide_eq_true hs) hhonest

/-- A call whose failure is one of its caller too. -/
theorem propagate_isolated (h : makeCall (launch host room) f r .propagate s = (.ok data, s')) :
    ∃ c, r.Describes f.call .sync c ∧ Absorbs host room f c true s.stage.world s data s' := by
  obtain ⟨⟨c, b⟩, s₁, hp, hx⟩ := Action.bind_eq_ok.1 h
  obtain ⟨hc, -, left, -, rfl⟩ := prepare_eq_ok hp
  refine ⟨c, hc, ?_⟩
  rcases runChild_isolated hx with ⟨_, hd, ha⟩ | ⟨_, hd, -⟩ | ⟨_, hd⟩
  · cases hd
    exact ha
  · cases hd
  · cases hd

/-- A call whose failure is reported. -/
theorem reported_isolated (h : makeCall (launch host room) f r .report s = (.ok result, s')) :
    (result.isSuccess = false → s'.effects = s.effects) ∧
      (host.registry.Raises Stop.IsHonest → result.isSuccess = true →
        ∃ c, r.Describes f.call .sync c ∧ Absorbs host room f c true s.stage.world s result.data s') := by
  obtain ⟨⟨c, b⟩, s₁, hp, hx⟩ := Action.bind_eq_ok.1 h
  obtain ⟨hc, -, left, -, rfl⟩ := prepare_eq_ok hp
  obtain ⟨hfail, hsuccess⟩ := report_isolated hx
  exact ⟨hfail, fun hr hs => ⟨c, hc, hsuccess hr hs⟩⟩

/-- A call that is paid ahead and whose failure is reported. -/
theorem keepValue_isolated (h : makeCall (launch host room) f r .keepValue s = (.ok result, s')) :
    ∃ c w, r.Describes f.call .transferExecute c ∧ World.moveValue c s.stage.world = (.ok (), w) ∧
      (result.isSuccess = false → s'.effects = (w, s.logs, s.queued)) ∧
      (host.registry.Raises Stop.IsHonest → result.isSuccess = true →
        if c.function.isEmpty then s'.effects = (w, s.logs, s.queued)
        else Absorbs host room f c false w s result.data s') := by
  obtain ⟨⟨c, b⟩, s₁, hp, h₁⟩ := Action.bind_eq_ok.1 h
  obtain ⟨hc, -, left, -, rfl⟩ := prepare_eq_ok hp
  obtain ⟨_, s₂, hm, h₂⟩ := Action.bind_eq_ok.1 h₁
  obtain ⟨w, hw, rfl⟩ := moveAhead_eq_ok hm
  refine ⟨c, w, hc, hw, ?_⟩
  by_cases hf : c.function.isEmpty
  · rw [if_pos hf] at h₂
    obtain ⟨_, s₃, hback, h₃⟩ := Action.bind_eq_ok.1 h₂
    obtain ⟨_, -, rfl⟩ := refund_eq_ok hback
    cases h₃
    exact ⟨fun _ => rfl, fun _ _ => by rw [if_pos hf]; rfl⟩
  · rw [if_neg hf] at h₂
    rw [if_neg hf]
    exact report_isolated h₂

end Frame

/-- A transaction whose deferred calls have run is a success. -/
theorem Drain.result_isSuccess {d : Drain} {data : List Bytes} {result : TransactionResult}
    (h : d.result data = .ok result) : result.isSuccess = true := by
  obtain ⟨used, -, rfl⟩ := result_eq_ok h
  rfl

namespace Engine

variable {e e' : Engine} {c : Call} {result : TransactionResult}

/-- A transaction that fails changes nothing and tells of nothing but its failure. -/
theorem execute_isolated (h : execute c e = (.ok result, e')) (hs : result.isSuccess = false) :
    e'.world = e.world ∧ result.logs = [] ∧ result.data = [] ∧ result.asyncCalls = [] ∧
      result.gasRemaining = 0 ∧ result.gasUsed = c.gasLimit := by
  rcases execute_cases h with ⟨f, ho, rfl, rfl⟩ | ⟨done, d, -, hd, -, -⟩
  · refine ⟨?_, rfl, rfl, rfl, rfl, rfl⟩
    rw [outer, launch, Frame.launch_eq] at ho ⊢
    rcases hr : Frame.bodyAt e.host e.room ⟨c, c.gasLimit, 0, none⟩ true
      (Frame.entered ⟨c, c.gasLimit, 0, none⟩ ⟨e.world, e.active, []⟩) with ⟨f | data, t⟩
    · rw [Frame.launchBody_of_error hr]
      rfl
    · rw [Frame.launchBody_of_ok hr] at ho
      cases ho
  · exact absurd (Drain.result_isSuccess hd) (by simp [hs])

/-- Failures stay inside. For every frame and every request of it, a call that reports a failure leaves
world, logs and queued calls as they were (after the payment, where that is made ahead). A
call that reports a success, or goes through where failures are not reported, has left all that
the callee brought about, unless contract code signals failures as successes. A transaction that fails
changes nothing. -/
theorem failures_isolated (e : Engine) :
    (∀ room f r (s s' : Running) result,
      Frame.makeCall (Frame.launch e.host room) f r .report s = (.ok result, s') →
        (result.isSuccess = false → s'.effects = s.effects) ∧
        (e.host.registry.Raises Stop.IsHonest → result.isSuccess = true →
          ∃ c, r.Describes f.call .sync c ∧
            Frame.Absorbs e.host room f c true s.stage.world s result.data s')) ∧
    (∀ room f r (s s' : Running) result,
      Frame.makeCall (Frame.launch e.host room) f r .keepValue s = (.ok result, s') →
        ∃ c w, r.Describes f.call .transferExecute c ∧ World.moveValue c s.stage.world = (.ok (), w) ∧
          (s.stage.world.IsWhole → s.stage.world.Shifts (Asset.between c.sender c.receiver c.pays) w) ∧
          (result.isSuccess = false → s'.effects = (w, s.logs, s.queued)) ∧
          (e.host.registry.Raises Stop.IsHonest → result.isSuccess = true →
            if c.function.isEmpty then s'.effects = (w, s.logs, s.queued)
            else Frame.Absorbs e.host room f c false w s result.data s')) ∧
    (∀ room f r (s s' : Running) data,
      Frame.makeCall (Frame.launch e.host room) f r .propagate s = (.ok data, s') →
        ∃ c, r.Describes f.call .sync c ∧ Frame.Absorbs e.host room f c true s.stage.world s data s') ∧
    ∀ c (result : TransactionResult) e', execute c e = (.ok result, e') → result.isSuccess = false →
      e'.world = e.world ∧ result.logs = [] ∧ result.data = [] ∧ result.asyncCalls = [] ∧
        result.gasRemaining = 0 ∧ result.gasUsed = c.gasLimit := by
  refine ⟨fun _ _ _ _ _ _ h => Frame.reported_isolated h, fun room f r s s' result h => ?_,
    fun _ _ _ _ _ _ h => Frame.propagate_isolated h, fun _ _ _ h hs => execute_isolated h hs⟩
  obtain ⟨c, w, hc, hw, hrest⟩ := Frame.keepValue_isolated h
  exact ⟨c, w, hc, hw, fun hwhole => World.moveValue_shifts hwhole hw, hrest⟩

/-! ### A payment that is refused -/

/-- Writes to its storage and then fails. -/
def refuse (_ : Entry) : Program Value := do
  Program.request (.storageSet (.text "seen") (.int 1))
  Program.signal "not wanted"

/-- An engine with a contract that does so, and an account with a hundred coins. -/
def refusingEngine : Engine where
  host := {
    registry := ⟨Table.ofList [("shop", ⟨Table.ofList [
      ("pay", { name := "pay", method := "pay", body := refuse })]⟩)]⟩
    settings := {} }
  world := { accounts := Table.ofList [([1], { code := some "shop" }), ([2], { balance := 100 })] }

/-- A payment of seven coins to the contract. -/
def refusedPayment : CallRequest where
  receiver := .bytes [1]
  function := .text "pay"
  native := .int 7
  gas := .int 5000

/-- A frame of the account with the coins. -/
def payer : Frame := ⟨.unpaid [3] [2] "" 10000, 10000, 0, none⟩

def beforePayment : Running := payer.entered ⟨refusingEngine.world, [], []⟩

/-- A payment that is refused comes back, and stays where it went when it was made ahead. -/
theorem failures_isolated_refused :
    (∃ s', Frame.makeCall (Frame.launch refusingEngine.host 1) payer refusedPayment .report
        beforePayment = (.ok (.failed (.user "not wanted")), s') ∧ s'.effects = beforePayment.effects) ∧
    ∃ s' w, Frame.makeCall (Frame.launch refusingEngine.host 1) payer refusedPayment .keepValue
        beforePayment = (.ok (.failed (.user "not wanted")), s') ∧
      s'.effects = (w, beforePayment.logs, beforePayment.queued) ∧ w.balance [1] = 7 := by
  obtain ⟨hreport, hkeep, -⟩ := failures_isolated refusingEngine
  constructor
  · refine ⟨_, Prod.ext rfl rfl, ?_⟩
    exact (hreport 1 payer refusedPayment beforePayment _ _ (Prod.ext rfl rfl)).1 rfl
  · have hpaid : (Frame.makeCall (Frame.launch refusingEngine.host 1) payer refusedPayment .keepValue
        beforePayment).2.stage.world.balance [1] = 7 := rfl
    obtain ⟨s', hs⟩ : ∃ s', Frame.makeCall (Frame.launch refusingEngine.host 1) payer refusedPayment
        .keepValue beforePayment = (.ok (.failed (.user "not wanted")), s') := ⟨_, Prod.ext rfl rfl⟩
    obtain ⟨c, w, -, -, -, hfail, -⟩ := hkeep 1 payer refusedPayment beforePayment _ _ hs
    have hw : s'.stage.world = w := congrArg Prod.fst (hfail rfl)
    rw [hs] at hpaid
    exact ⟨s', w, hs, hfail rfl, hw ▸ hpaid⟩

end Engine

end TrialLedger
