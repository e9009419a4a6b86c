import TrialLedger.Proofs.Conservation
import TrialLedger.Proofs.Engine.Nested
import TrialLedger.Proofs.World.WellFormed

/-! The ledger stays well formed as long as contracts send no less than nothing. Amounts that a call
pays are natural numbers by the time it is made, but what contract code sends directly is not looked
at: an amount below zero is found to be covered, and it is taken from the receiver. -/

namespace TrialLedger

namespace Frame

/-- A direct send of a whole amount is a transfer from the frame's own account. -/
theorem send_apply (f : Frame) (receiver : Bytes) (token : Token) (nonce n : Int) (s : Running) :
    send f (.bytes receiver) token (.int nonce) (.int n) s =
      onWorld (World.transfer f.call.receiver (.address receiver) token (nonce : Nonce) (.whole n)) s := by
  have hnonce : Nonce.ofValue (.int nonce) = .ok (nonce : Nonce) := by
    rw [Nonce.ofValue, Key.ofValue_int]
    rfl
  have hzero : (Value.int n).isZero = (Amount.whole n).isZero := rfl
  unfold send
  rw [hzero, hnonce]
  by_cases hn : (Amount.whole n).isZero
  · rw [if_pos hn]
    have htransfer := World.transfer_of_isZero hn f.call.receiver (.address receiver) token nonce
      s.stage.world
    exact (onWorld_eq.2 ⟨_, htransfer, rfl⟩).symm
  · rw [if_neg hn]
    cases token <;> rfl

end Frame

namespace Engine

/-- While contracts send natural amounts, a well-formed world is well formed after every series of
transactions and queries, and at the end of every frame that begins in one. Contracts may rely on being told of natural
balances only, and where they rely on natural gas, they ask for whole gas and declare natural costs. Of all whole
amounts that a contract may send to another account, exactly those from zero on take nothing from anybody
but the sender. -/
theorem wellFormed_foldl_perform (gas : Prop) (e : Engine) (hw : e.world.WellFormed)
    (hcosts : gas → e.host.registry.All Endpoint.CostsNatural)
    (hr : e.host.registry.AsksGiven (Call.MayTell (fun a => gas → a.IsNatural) Amount.IsNatural) fun r =>
      r.SendsNatural ∧ (gas → r.AsksWhole)) :
    (∀ os, (List.foldl perform e os).world.WellFormed) ∧
    (∀ room (f : Frame) movesValue stage, (gas → f.budget.IsNatural) → stage.world.WellFormed →
      (Frame.launch e.host room f movesValue stage).stage.world.WellFormed) ∧
    ∀ (f : Frame) (s : Running) receiver token nonce n, s.stage.world.WellFormed →
      receiver ≠ f.call.receiver →
        let s' := (Frame.send f (.bytes receiver) token (.int nonce) (.int n) s).2
        ((∀ b ≠ f.call.receiver, ∀ x, ((s.stage.world.account b).amount x).int ≤
          ((s'.stage.world.account b).amount x).int) ↔ 0 ≤ n) := by
  have hs : World.Stable (fun r => r.SendsNatural ∧ (gas → r.AsksWhole)) World.WellFormed :=
    World.stable_wellFormed.mono fun _ h => h.1
  have hregime : Meter.Regime (fun a => gas → a.IsNatural) fun r => r.SendsNatural ∧ (gas → r.AsksWhole) :=
    (Meter.Regime.given fun _ => Meter.regime_isNatural).mono fun _ h => h.2
  have hpaid : e.host.registry.All (Endpoint.Costs fun a => gas → a.IsNatural) := .costs_given fun hgas =>
    (hcosts hgas).mono fun _ h => h.costs
  have hholds : ∀ w : World, w.WellFormed → w.Holds Amount.IsNatural := fun _ h => h.holds
  refine ⟨fun os => foldl_perform_given hregime hs hholds hpaid hr hw os, fun room f movesValue stage hb hstage =>
    (Frame.launch_steady hregime hs hholds hpaid hr room f movesValue stage hb hstage).world, ?_⟩
  intro f s receiver token nonce n hs hne
  dsimp only
  rw [Frame.send_apply]
  exact hs.takes_nothing_iff hne token nonce n

/-! ### A payment -/

theorem tillEngine_sendsNatural : tillEngine.host.registry.AsksGiven
    (Call.MayTell (fun a => True → a.IsNatural) Amount.IsNatural) fun r => r.SendsNatural ∧ (True → r.AsksWhole) := by
  refine tillEngine_all fun _ => .request_bind ⟨trivial, fun _ => trivial⟩ fun funds hfunds => ?_
  obtain ⟨n, rfl⟩ : funds.IsNatural := hfunds
  exact .bind (.request ⟨fun a ha => ⟨n, (Option.some.inj ha).symm⟩, fun _ => trivial⟩) fun _ => trivial

theorem tillEngine_wellFormed : tillEngine.world.WellFormed := by
  refine ⟨fun e he => ?_, nofun⟩
  obtain rfl := List.mem_singleton.1 he
  exact ⟨⟨100, rfl⟩, nofun, nofun⟩

/-- The frame of a payment from the till. -/
def tillFrame : Frame := ⟨tillCall, 10000, 0, none⟩

/-- The till pays out what it has, and five coins that it sends take nothing from anybody else. -/
theorem wellFormed_tillEngine :
    let e := [.execute tillCall, .query tillCall].foldl perform tillEngine
    let s := tillFrame.entered ⟨tillEngine.world, [], []⟩
    let s' := (Frame.send tillFrame (.bytes [2]) .native (.int 0) (.int 5) s).2
    e.world.WellFormed ∧ e.world.balance [1] = 0 ∧ s'.stage.world.balance [2] = 5 ∧
      ∀ b ≠ [1], ∀ x, ((s.stage.world.account b).amount x).int ≤
        ((s'.stage.world.account b).amount x).int := by
  obtain ⟨hrun, -, hsend⟩ :=
    wellFormed_foldl_perform True tillEngine tillEngine_wellFormed (fun _ => tillEngine_all nofun) tillEngine_sendsNatural
  refine ⟨hrun [.execute tillCall, .query tillCall], rfl, rfl, ?_⟩
  exact (hsend tillFrame (tillFrame.entered ⟨tillEngine.world, [], []⟩) [2] .native 0 5
    tillEngine_wellFormed (by decide)).2 (by decide)

/-! ### A payment of less than nothing -/

/-- Sends the account `[2]` five coins less than nothing. -/
def take (_ : Entry) : Program Value := do
  Program.request (.send (.bytes [2]) .native (.int 0) (.int (-5)))
  return .nothing

/-- An engine with a contract that does so and has nothing, and an account with three coins. -/
def takingEngine : Engine where
  host := {
    registry := ⟨Table.ofList [("sample", ⟨Table.ofList [
      ("take", { name := "take", method := "take", body := take })]⟩)]⟩
    settings := {} }
  world := { accounts := Table.ofList [([1], { code := some "sample" }), ([2], { balance := 3 })] }

def takingCall : Call := .unpaid [3] [1] "take" 10000

/-- The transaction succeeds: the contract has five coins and the account is two short. -/
theorem not_wellFormed_take :
    takingEngine.world.WellFormed ∧
      ∃ result, (execute takingCall takingEngine).1 = .ok result ∧ result.isSuccess = true ∧
        (execute takingCall takingEngine).2.world.balance [1] = 5 ∧
        (execute takingCall takingEngine).2.world.balance [2] = .whole (-2) ∧
        ¬ (execute takingCall takingEngine).2.world.WellFormed := by
  have hstart : takingEngine.world.WellFormed := by
    refine ⟨fun e he => ?_, nofun⟩
    rcases List.mem_cons.1 he with rfl | he
    · exact ⟨⟨0, rfl⟩, nofun, nofun⟩
    · obtain rfl := List.mem_singleton.1 he
      exact ⟨⟨3, rfl⟩, nofun, nofun⟩
  have hshort : (execute takingCall takingEngine).2.world.balance [2] = .whole (-2) := rfl
  refine ⟨hstart, _, rfl, rfl, rfl, hshort, fun hend => ?_⟩
  have hnonneg := (hend.account [2]).amount_nonneg .native
  rw [show ((execute takingCall takingEngine).2.world.account [2]).amount .native = .whole (-2) from hshort]
    at hnonneg
  exact absurd hnonneg (by decide)

end Engine

end TrialLedger
