import TrialLedger.Proofs.Engine.Gas
import TrialLedger.Proofs.Engine.Told

/-! The kinds of amounts that transactions stay on. Gas stays whole, and natural, as long as programs ask for gas that
has no point. What accounts hold stays whole as long as programs send amounts without a point, and natural as
long as they send no less than nothing. -/

namespace TrialLedger

/-! ### Gas -/

theorem Meter.regime_isWhole : Meter.Regime Amount.IsWhole Request.AsksWhole where
  nat n := ⟨n, rfl⟩
  minus := by
    rintro _ _ _ ⟨m, rfl⟩ ⟨n, rfl⟩ - h
    exact ⟨m - n, (Except.ok.inj h).symm⟩
  plus := by
    rintro _ _ _ ⟨m, rfl⟩ ⟨n, rfl⟩ h
    exact ⟨m + n, (Except.ok.inj h).symm⟩
  call hr _ _ _ hleft _ hb := CallRequest.isWhole_of_asked hr hleft hb
  callAsync hr _ _ _ hleft _ hb := CallRequest.isWhole_of_asked hr hleft hb

theorem CallRequest.isNatural_of_asked {r : CallRequest} (hr : r.gas.IsPointless) : r.Reserves Amount.IsNatural := by
  rintro left b n ⟨m, rfl⟩ hn hb
  have hpointless : (r.asked m).IsPointless := asked_isPointless hr ⟨m, rfl⟩
  exact ⟨n.toNat, by rw [hpointless.eq_of_asNatural hn hb, Int.toNat_of_nonneg (Value.asNatural_nonneg hn)]⟩

theorem Meter.regime_isNatural : Meter.Regime Amount.IsNatural Request.AsksWhole where
  nat n := ⟨n, rfl⟩
  minus := by
    rintro _ _ _ ⟨m, rfl⟩ ⟨n, rfl⟩ hlt h
    rw [Amount.lt_whole, decide_eq_false_iff_not] at hlt
    rw [Amount.minus_whole, Amount.whole_sub (by omega)] at h
    exact ⟨m - n, (Except.ok.inj h).symm⟩
  plus := by
    rintro _ _ _ ⟨m, rfl⟩ ⟨n, rfl⟩ h
    exact ⟨m + n, (Except.ok.inj h).symm⟩
  call hr := CallRequest.isNatural_of_asked hr
  callAsync hr := CallRequest.isNatural_of_asked hr

theorem Endpoint.CostsNatural.costs {e : Endpoint} (h : e.CostsNatural) : e.Costs Amount.IsNatural := h

theorem Endpoint.CostsNatural.costs_isWhole {e : Endpoint} (h : e.CostsNatural) : e.Costs Amount.IsWhole := by
  intro v hv a ha
  obtain ⟨n, hn⟩ := h v hv a ha
  exact ⟨n, hn⟩

/-! ### What accounts hold -/

namespace World

theorem IsWhole.holds {w : World} (hw : w.IsWhole) : w.Holds Amount.IsWhole :=
  ⟨⟨0, rfl⟩, fun _ _ ha => All.find? hw ha⟩

theorem WellFormed.holds {w : World} (hw : w.WellFormed) : w.Holds Amount.IsNatural :=
  ⟨⟨0, rfl⟩, fun _ _ ha => ((wellFormed_iff_all.1 hw).find? ha).amount⟩

theorem Holds.given {held : Amount → Prop} {w : World} {p : Prop} (h : p → w.Holds held) :
    w.Holds fun a => p → held a :=
  ⟨fun hp => (h hp).1, fun _ _ ha x hp => (h hp).2 _ _ ha x⟩

/-- What accounts hold stays whole. -/
theorem stable_isWhole : World.Stable Request.SendsWhole IsWhole where
  move c := moveValue_preserves_of fun token nonce n => transfer_isWhole _ _ token (nonce : Int) n
  transfer hr sender n a ha := by
    obtain ⟨m, rfl⟩ := hr.isWhole ha
    exact transfer_isWhole sender _ _ n m
  store address key value h := (storageSet_gains h address key value).isWhole

end World

namespace Engine

/-- A transaction on whole gas runs as one whose programs are cut off at answers of another kind. What accounts hold
may be relied on to be whole when it is, and then what is sent has to be. -/
theorem execute_within_whole {funds : Prop} {e e' : Engine} {c : Call} {x : Except Stop TransactionResult}
    (hw : funds → e.world.IsWhole) (hcosts : e.host.registry.All (Endpoint.Costs Amount.IsWhole))
    (hr : e.host.registry.AsksGiven (Call.MayTell Amount.IsWhole fun a => funds → a.IsWhole) fun r =>
      r.AsksWhole ∧ (funds → r.SendsWhole)) (h : execute c e = (x, e')) :
    execute c (e.within (Call.MayTell Amount.IsWhole fun a => funds → a.IsWhole)) =
      (x, e'.within (Call.MayTell Amount.IsWhole fun a => funds → a.IsWhole)) := by
  have hregime : Meter.Regime Amount.IsWhole fun r => r.AsksWhole ∧ (funds → r.SendsWhole) :=
    Meter.regime_isWhole.mono fun _ h => h.1
  have hs : World.Stable (fun r => r.AsksWhole ∧ (funds → r.SendsWhole)) fun w => funds → w.IsWhole :=
    (World.Stable.given fun _ => World.stable_isWhole).mono fun _ h => h.2
  rw [execute_within hregime hs (fun _ h => .given fun hfunds => (h hfunds).holds) hcosts hr hw c, h]

end Engine

end TrialLedger
