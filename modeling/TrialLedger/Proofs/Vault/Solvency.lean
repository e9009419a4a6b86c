import TrialLedger.Proofs.Strict
import TrialLedger.Proofs.Vault.Frames

/-! A vault stays solvent. What all frames leave covered is covered after the deferred calls of a transaction and
their callbacks, and so after every transaction that the vault does not send itself. -/

namespace TrialLedger

open TrialLedger.Action (Leads Preserves)
open Contracts.Vault (Solvent)

namespace Drain

variable {vault : Bytes} {launch : Launch} {f : Frame}

/-- Between two frames of a transaction what is owed is covered, and no call waits that does harm. -/
abbrev Guarded (vault : Bytes) (d : Drain) : Prop :=
  d.stage.world.Covers vault 0 ∧ ∀ a ∈ d.backlog, a.IsHarmless vault

theorem runFrame_guarded (hl : launch.Guards vault) (hf : f.call.IsHarmless vault) :
    Preserves (Guarded vault) (runFrame launch f) := by
  intro d hd
  obtain ⟨hworld, hqueued⟩ := hl f true d.stage hf hd.1
  unfold runFrame
  dsimp only
  split
  · rename_i done ho
    rw [Exit.queued, ho] at hqueued
    exact ⟨hworld, List.forall_mem_append.2 ⟨hd.2, hqueued⟩⟩
  · exact ⟨hworld, hd.2⟩
  · exact ⟨hworld, hd.2⟩

theorem runAsync_guarded (hl : launch.Guards vault) {a : AsyncCall} (ha : a.IsHarmless vault) :
    Preserves (Guarded vault) (runAsync launch a) :=
  Leads.preserves <| runAsync_leads_of (.of_preserves (runFrame_guarded hl ha.call) fun _ h => h) (fun _ _ _ h => h)
    (fun _ _ _ hc => .of_preserves (runFrame_guarded hl ((callbackCall_informs hc).isHarmless ha)) fun _ h => h)
    (fun _ _ h => h) (fun _ _ => .of_preserves (.zoom fun _ h => h) fun _ h => h) fun _ _ _ h => h

theorem run_guarded (hl : launch.Guards vault) (rounds : Nat) : Preserves (Guarded vault) (run launch rounds) := by
  have hround : ∀ l, (∀ a ∈ l, a.IsHarmless vault) →
      Leads (Guarded vault) (fun _ => Guarded vault) (Guarded vault) (runRound launch l) := fun l =>
    runRound_leads_of (I := fun _ => Guarded vault) (H := fun _ _ => Guarded vault)
      (fun _ _ d _ h => ⟨h.1, fun a ha => h.2 a (List.mem_of_mem_drop ha)⟩)
      fun a _ ha => .of_preserves (runAsync_guarded hl ha) fun _ h => h
  refine Leads.preserves (run_leads_of (fun l => ?_) rounds)
  rintro d ⟨h, rfl⟩
  exact hround d.backlog h.2 d h

end Drain

namespace Engine

variable {e : Engine} {v : Bytes} {c : Call}

/-- A transaction that does no harm leaves what is owed covered, also one that fails or breaks off. -/
theorem execute_covers (hr : e.host.registry = Contracts.registry) (h : e.world.Covers v 0) (hc : c.IsHarmless v) :
    (execute c e).2.world.Covers v 0 := by
  have hl : e.launch.Guards v := Frame.launch_guards hr e.room
  obtain ⟨hworld, hqueued⟩ := hl ⟨c, c.gasLimit, 0, none⟩ true ⟨e.world, e.active, []⟩ hc h
  unfold execute
  split
  · exact h
  · dsimp only
    split
    · exact hworld
    · exact hworld
    · rename_i done ho
      rw [Exit.queued, ho] at hqueued
      exact (Drain.run_guarded hl _ ⟨_, done.queued, _, done.logs, []⟩ ⟨hworld, hqueued⟩).1

theorem foldl_execute_covers {calls : List Call} (hr : e.host.registry = Contracts.registry) (h : e.world.Covers v 0)
    (hcalls : ∀ c ∈ calls, c.IsHarmless v) : (calls.foldl (fun e c => (execute c e).2) e).world.Covers v 0 := by
  induction calls generalizing e with
  | nil => exact h
  | cons c r ih =>
    obtain ⟨hc, hrest⟩ := List.forall_mem_cons.1 hcalls
    have hhost : (execute c e).2.host = e.host := e.perform_host (.execute c)
    exact ih (by rw [hhost, hr]) (execute_covers hr h hc) hrest

/-- If all contracts have addresses of full length, a vault that holds what it owes still does after each of a series
of transactions that it does not send itself. The depositors have been told what they paid, whatever calls their
deposits went through, and a frame that fails takes back the entry together with the payment. -/
theorem vault_stays_solvent (hr : e.host.registry = Contracts.registry)
    (hvault : (e.world.account v).code = some "vault")
    (hlength : ∀ b, (e.world.account b).code.isSome → b.length = 32) (hs : Solvent v e.world) {calls : List Call}
    (hcalls : ∀ c ∈ calls, c.IsPlain ∧ c.sender ≠ v) :
    ∀ l, l <+: calls → Solvent v (l.foldl (fun e c => (execute c e).2) e).world := by
  intro l hl
  have hcovers : e.world.Covers v 0 := by
    obtain ⟨n, hn, hle⟩ := hs
    exact ⟨hvault, hlength, n, hn, by omega⟩
  have hharmless : ∀ c ∈ l, c.IsHarmless v := fun c hc =>
    (hcalls c (hl.subset hc)).1.isHarmless (hcalls c (hl.subset hc)).2
  obtain ⟨n, hn, hle⟩ := (foldl_execute_covers hr hcovers hharmless).covered
  exact ⟨n, hn, by omega⟩

/-! ### A deposit that is passed on -/

def vaultAddress : Bytes := List.replicate 32 1

def relayAddress : Bytes := List.replicate 32 2

def saverAddress : Bytes := List.replicate 32 3

/-- A vault in which seven coins are deposited, a contract that passes on what it is paid, and a saver with five. -/
def savingsEngine : Engine where
  host := ⟨Contracts.registry, {}⟩
  world := { accounts := Table.ofList [
    (vaultAddress, {
      balance := 7
      storage := Table.ofList [(Contracts.Vault.depositKey saverAddress Token.nativeName, [7])]
      code := some "vault" }),
    (relayAddress, { code := some "forwarder" }),
    (saverAddress, { balance := 5 })] }

/-- The saver deposits five coins through the other contract. -/
def passedDeposit : Call :=
  { Call.unpaid saverAddress relayAddress "forward_sync" 100000 with
    native := 5
    arguments := [vaultAddress, Utf8.encode "deposit"]
    native_eq_zero := fun h => absurd rfl h }

/-- The saver takes back three. -/
def savingsWithdrawal : Call :=
  { Call.unpaid saverAddress vaultAddress "withdraw" 100000 with arguments := [[3]] }

theorem vault_stays_solvent_savings :
    Solvent vaultAddress savingsEngine.world ∧
      ∀ l, l <+: [passedDeposit, savingsWithdrawal] →
        Solvent vaultAddress (l.foldl (fun e c => (execute c e).2) savingsEngine).world := by
  have hlength : ∀ b, (savingsEngine.world.account b).code.isSome → b.length = 32 := by
    intro b hb
    cases ha : savingsEngine.world.account? b with
    | none =>
      rw [World.account, ha] at hb
      cases hb
    | some a =>
      have hmem := Table.mem_of_mem_ofList (Table.mem_of_lookup_eq_some ha)
      simp only [List.mem_cons, List.not_mem_nil, or_false, Prod.mk.injEq] at hmem
      rcases hmem with ⟨rfl, -⟩ | ⟨rfl, -⟩ | ⟨rfl, -⟩ <;> rfl
  have hsolvent : Solvent vaultAddress savingsEngine.world := ⟨7, rfl, by decide⟩
  refine ⟨hsolvent, vault_stays_solvent rfl rfl hlength hsolvent ?_⟩
  simp only [List.forall_mem_cons]
  have hnone : ∀ t ∈ ([] : List Transfer), t.IsParsed := List.forall_mem_nil _
  exact ⟨⟨⟨rfl, rfl, hnone, rfl⟩, by decide⟩, ⟨⟨rfl, rfl, hnone, rfl⟩, by decide⟩, List.forall_mem_nil _⟩

end Engine

/-! ### Calls that are read -/

namespace Fixture

variable {ctx : Context} {path : String}

theorem length_of_readAddress {j : Json} {b : Bytes} (h : readAddress ctx path j = .ok b) : b.length = 32 := by
  unfold readAddress at h
  split at h
  · cases h
  · obtain ⟨b', -, h⟩ := bind_eq_ok.1 h
    split at h
    · rename_i hlength
      obtain rfl := Except.ok.inj h
      exact hlength
    · cases h

theorem isParsed_of_readTransfer {r : TransferRecord} {t : Transfer} (h : readTransfer ctx path r = .ok t) :
    t.IsParsed := by
  obtain ⟨name, -, h⟩ := bind_eq_ok.1 h
  obtain ⟨amount, -, h⟩ := bind_eq_ok.1 h
  cases amount with
  | none => cases h
  | some amount =>
    obtain ⟨nonce, -, h⟩ := bind_eq_ok.1 h
    obtain rfl := Except.ok.inj h
    exact ⟨name, rfl⟩

/-- The calls of scenarios are plain. -/
theorem isPlain_of_readCall {txHash : Bytes} {r : CallRecord} {c : Call} (h : readCall ctx path txHash r = .ok c) :
    c.IsPlain := by
  obtain ⟨native, -, h⟩ := bind_eq_ok.1 h
  obtain ⟨transfers, htransfers, h⟩ := bind_eq_ok.1 h
  obtain ⟨arguments, -, h⟩ := bind_eq_ok.1 h
  obtain ⟨gasLimit, -, h⟩ := bind_eq_ok.1 h
  obtain ⟨sender, hsender, h⟩ := bind_eq_ok.1 h
  obtain ⟨receiver, hreceiver, h⟩ := bind_eq_ok.1 h
  obtain ⟨gasPrice, -, h⟩ := bind_eq_ok.1 h
  have hvalid := Action.mapError_eq_ok.1 h
  obtain ⟨hs, hr, -, ht, -, -, hkind⟩ := Call.Draft.validate_eq_ok hvalid
  refine ⟨?_, ?_, ?_, hkind⟩
  · rw [hs]
    exact length_of_readAddress hsender
  · rw [hr]
    exact length_of_readAddress hreceiver
  · have hparsed := (forall₂_of_readItems htransfers).imp fun t _ hread =>
      And.intro (isParsed_of_readTransfer hread) hread
    rw [ht]
    exact ((List.forall₂_and_left _ _).1 hparsed).1

end Fixture

end TrialLedger
