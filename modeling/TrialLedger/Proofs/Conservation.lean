import TrialLedger.Proofs.Engine.Kinds

/-! Value is neither made nor lost. However contracts nest and undo their calls, and however a
transaction ends, the accounts together hold as much of every asset after it as before. Contracts may send what they
are told of gas and of balances: these are whole amounts, too. -/

namespace TrialLedger

open TrialLedger.Action (Preserves)

namespace World

variable {w₀ : World}

/-- Moving what a call pays leaves the totals as they were, also when it breaks off midway. -/
theorem moveValue_preserves (c : Call) : Preserves (w₀.Gains 0) (moveValue c) :=
  moveValue_preserves_of fun token nonce n _ hw =>
    hw.trans_zero (transfer_gains (Place.isOpen_address c.receiver) token (nonce : Int) n hw.isWhole)

theorem stable_gains : World.Stable (fun r => r.SendsWhole ∧ r.SendsOpen) (w₀.Gains 0) where
  move := moveValue_preserves
  transfer hr sender n a ha w hw := by
    obtain ⟨m, rfl⟩ := hr.1.isWhole ha
    exact hw.trans_zero (transfer_gains hr.2 _ n m hw.isWhole)
  store address key value h := h.trans_zero (storageSet_gains h.isWhole address key value)

end World

namespace Engine

/-- No series of transactions and queries changes how much of an asset all accounts hold, as long as what contracts
send is whole and goes where an account can be. Contracts may rely on being told of whole balances only, and where
they rely on whole gas, they ask for whole gas and declare such costs. -/
theorem total_foldl_perform (gas : Prop) (e : Engine) (os : List Operation) (hw : e.world.IsWhole)
    (hcosts : gas → e.host.registry.All Endpoint.CostsWhole)
    (hr : e.host.registry.AsksGiven (Call.MayTell (fun a => gas → a.IsWhole) Amount.IsWhole) fun r =>
      (r.SendsWhole ∧ r.SendsOpen) ∧ (gas → r.AsksWhole)) :
    (os.foldl perform e).world.IsWhole ∧ ∀ x, (os.foldl perform e).world.total x = e.world.total x := by
  have hs : World.Stable (fun r => (r.SendsWhole ∧ r.SendsOpen) ∧ (gas → r.AsksWhole)) (e.world.Gains 0) :=
    World.stable_gains.mono fun _ h => h.1
  have hregime : Meter.Regime (fun a => gas → a.IsWhole) fun r => (r.SendsWhole ∧ r.SendsOpen) ∧ (gas → r.AsksWhole) :=
    (Meter.Regime.given fun _ => Meter.regime_isWhole).mono fun _ h => h.2
  have hpaid : e.host.registry.All (Endpoint.Costs fun a => gas → a.IsWhole) := .costs_given fun hgas =>
    (hcosts hgas).mono fun _ h => h.costs
  have h := foldl_perform_given hregime hs (fun _ h => h.isWhole.holds) hpaid hr (World.Gains.refl hw) os
  exact ⟨h.isWhole, fun x => by rw [h.total_eq, Pi.zero_apply, add_zero]⟩

/-! ### A payment -/

/-- Sends the caller all coins that the contract has. -/
def payOut (e : Entry) : Program Value := do
  let funds ← Program.request (.balance (.bytes e.call.receiver) .native (.int 0))
  Program.request (.send (.bytes e.call.sender) .native (.int 0) funds.value)
  return .nothing

/-- An engine with a contract that does so and has a hundred coins. -/
def tillEngine : Engine where
  host := {
    registry := ⟨Table.ofList [("till", ⟨Table.ofList [
      ("pay", { name := "pay", method := "pay", body := payOut })]⟩)]⟩
    settings := {} }
  world := { accounts := Table.ofList [([1], { balance := 100, code := some "till" })] }

def tillCall : Call := .unpaid [2] [1] "pay" 10000

theorem tillEngine_all {p : Endpoint → Prop} (h : p { name := "pay", method := "pay", body := payOut }) :
    tillEngine.host.registry.All p := by
  refine .of_entries fun c hc e he => ?_
  obtain rfl := List.mem_singleton.1 hc
  obtain rfl := List.mem_singleton.1 he
  exact h

theorem tillEngine_isWhole : tillEngine.world.IsWhole := by
  refine ⟨fun e he => ?_, nofun⟩
  obtain rfl := List.mem_singleton.1 he
  rintro (_ | _)
  · exact ⟨100, rfl⟩
  · exact ⟨0, rfl⟩

/-- A payment and one that is tried out leave a hundred coins in all, which the caller has. -/
theorem total_tillEngine :
    let e := [.execute tillCall, .query tillCall].foldl perform tillEngine
    e.world.balance [2] = 100 ∧ e.world.total .native = 100 := by
  have hasks : tillEngine.host.registry.AsksGiven (Call.MayTell (fun a => True → a.IsWhole) Amount.IsWhole) fun r =>
      (r.SendsWhole ∧ r.SendsOpen) ∧ (True → r.AsksWhole) := by
    refine tillEngine_all fun _ => .request_bind ⟨⟨trivial, trivial⟩, fun _ => trivial⟩ fun funds hfunds => ?_
    obtain ⟨n, rfl⟩ : funds.IsWhole := hfunds
    exact .bind (.request ⟨⟨nofun, trivial⟩, fun _ => trivial⟩) fun _ => trivial
  have hcosts : True → tillEngine.host.registry.All Endpoint.CostsWhole := fun _ => tillEngine_all nofun
  exact ⟨rfl, (total_foldl_perform True tillEngine [.execute tillCall, .query tillCall]
    tillEngine_isWhole hcosts hasks).2 .native⟩

end Engine

end TrialLedger
