import TrialLedger.Proofs.Engine.Explained

/-! Contracts reach their own storage alone. A transaction opens accounts and moves amounts, but no account
disappears or gets another nonce, code or owner; and an account's storage changes only by endpoints of its own
contract, in frames that are committed together with all frames around them. -/

namespace TrialLedger

namespace Frame

/-- No code runs where there is no account. -/
theorem resolve_of_none {host : Host} {c : Call} {w : World} (h : w.account? c.receiver = none) :
    resolve host c w = .ok none := by
  unfold resolve
  rw [h]
  rfl

end Frame

namespace World.Extends

variable {w w' : World}

theorem account_eq (h : w.Extends w') {b : Bytes} {a : Account} (ha : w.account? b = some a) :
    ∃ a', w'.account? b = some a' ∧ a'.identity = a.identity := by
  obtain ⟨a', ha'⟩ := Option.isSome_iff_exists.1 (h.isSome b (by rw [ha]; rfl))
  have hidentity := h.identity_eq b
  rw [World.account, World.account, ha, ha'] at hidentity
  exact ⟨a', ha', hidentity⟩

theorem identity_of_none (h : w.Extends w') {b : Bytes} {a' : Account} (ha : w.account? b = none)
    (ha' : w'.account? b = some a') : a'.identity = (0, none, none) := by
  have hidentity := h.identity_eq b
  rw [World.account, World.account, ha, ha'] at hidentity
  exact hidentity

theorem stray_rest (h : w.Extends w') {k : Key} {s : Stray} (hs : w.strays.get? k = some s) :
    ∃ s', w'.strays.get? k = some s' ∧ s'.account.rest = s.account.rest := by
  obtain ⟨s', hs'⟩ := Option.isSome_iff_exists.1 (h.isSome_stray k (by rw [hs]; rfl))
  have hrest := h.stray_eq k
  rw [World.stray, World.stray, hs, hs'] at hrest
  exact ⟨s', hs', hrest⟩

theorem rest_of_none (h : w.Extends w') {k : Key} {s' : Stray} (hs : w.strays.get? k = none)
    (hs' : w'.strays.get? k = some s') : s'.account.rest = Account.rest {} := by
  have hrest := h.stray_eq k
  rw [World.stray, World.stray, hs, hs'] at hrest
  exact hrest

end World.Extends

namespace Engine

/-- The world after a transaction extends the one before, and its journal explains what is stored. -/
theorem execute_explained (e : Engine) (c : Call) :
    let e' := (execute c e).2
    e.world.Extends e'.world ∧
      (∀ b, (e'.world.account b).storage ≠ (e.world.account b).storage →
        ∃ key, Wrote e.host e.world [] e'.journal b key) ∧
      ∀ b key, (e'.world.account b).storage.get? key ≠ (e.world.account b).storage.get? key →
        Wrote e.host e.world [] e'.journal b key := by
  intro e'
  by_cases hidle : e.active = []
  · have hl : e.launch.KeepsStage fun stage =>
        Visit.opened stage.journal = [] ∧ Explained e.host e.world stage.world stage.journal := by
      rintro f movesValue stage ⟨hopened, hexplained⟩
      obtain ⟨hsince, hend⟩ := Frame.launch_explains e.host e.world e.room f movesValue stage hexplained
      exact ⟨hsince.opened_eq.trans hopened, hend⟩
    obtain ⟨hopened, haccounts, hstorage, hkeys⟩ := execute_stage hl hidle c ⟨rfl, .refl _ _ _⟩
    rw [hopened] at hstorage hkeys
    exact ⟨haccounts, hstorage, hkeys⟩
  · have hbusy : e' = e := by
      unfold e' execute
      rw [if_pos (by simp [hidle])]
    rw [hbusy]
    exact ⟨.refl _, fun _ h => absurd rfl h, fun _ _ h => absurd rfl h⟩

/-- No account disappears in a transaction, and none changes its nonce, code or owner. An account that is
opened is empty but for its amounts. What is stored in an account differs only if an endpoint of its contract
has written to it in a frame that is committed with all frames around it, and likewise for every key. Accounts
under what is no address have nothing but amounts. -/
theorem execute_accounts (e : Engine) (c : Call) :
    let e' := (execute c e).2
    (∀ b a, e.world.account? b = some a → ∃ a', e'.world.account? b = some a' ∧
      a'.nonce = a.nonce ∧ a'.code = a.code ∧ a'.owner = a.owner ∧
      (a'.storage ≠ a.storage → ∃ key, Wrote e.host e.world [] e'.journal b key) ∧
      ∀ key, a'.storage.get? key ≠ a.storage.get? key → Wrote e.host e.world [] e'.journal b key) ∧
    (∀ b a', e.world.account? b = none → e'.world.account? b = some a' →
      a'.nonce = 0 ∧ a'.code = none ∧ a'.owner = none ∧ a'.storage = Table.empty) ∧
    (∀ k s, e.world.strays.get? k = some s →
      ∃ s', e'.world.strays.get? k = some s' ∧ s'.account.rest = s.account.rest) ∧
    ∀ k s', e.world.strays.get? k = none → e'.world.strays.get? k = some s' →
      s'.account.rest = Account.rest {} := by
  intro e'
  obtain ⟨haccounts, hstorage, hkeys⟩ := execute_explained e c
  refine ⟨fun b a ha => ?_, fun b a' ha ha' => ?_, fun k s hs => haccounts.stray_rest hs,
    fun k s' hs hs' => haccounts.rest_of_none hs hs'⟩
  · obtain ⟨a', ha', hidentity⟩ := haccounts.account_eq ha
    have hbefore : e.world.account b = a := by rw [World.account, ha]; rfl
    have hafter : e'.world.account b = a' := by rw [World.account, ha']; rfl
    have hown := hstorage b
    have hkey := hkeys b
    rw [hbefore, hafter] at hown hkey
    obtain ⟨hnonce, hcode, howner⟩ : a'.nonce = a.nonce ∧ a'.code = a.code ∧ a'.owner = a.owner := by
      simpa [Account.identity] using hidentity
    exact ⟨a', ha', hnonce, hcode, howner, hown, hkey⟩
  · obtain ⟨hnonce, hcode, howner⟩ : a'.nonce = 0 ∧ a'.code = none ∧ a'.owner = none := by
      simpa [Account.identity] using haccounts.identity_of_none ha ha'
    refine ⟨hnonce, hcode, howner, by_contra fun hne => ?_⟩
    have hbefore : (e.world.account b).storage = Table.empty := by rw [World.account, ha]; rfl
    have hafter : e'.world.account b = a' := by rw [World.account, ha']; rfl
    obtain ⟨key, v, -, -, rfl, endpoint, hruns⟩ := hstorage b (by rw [hbefore, hafter]; exact hne)
    rw [Frame.resolve_of_none ha] at hruns
    cases hruns

/-! ### A write that is kept and one that is undone -/

/-- Writes to its storage, pays an account that is not there, and takes note of how a nested call ends. -/
def keepAndLose (_ : Entry) : Program Value := do
  Program.request (.storageSet (.text "kept") (.int 1))
  Program.request (.send (.bytes [9]) .native (.int 0) (.int 3))
  let nested : CallRequest := { receiver := .bytes [1], function := .text "lose", gas := .int 2000 }
  let _ ← Program.request (.call .report nested)
  return .nothing

/-- Writes to its storage and fails. -/
def lose (_ : Entry) : Program Value := do
  Program.request (.storageSet (.text "lost") (.int 1))
  Program.signal "lost"

/-- An engine with a contract that does both. -/
def keepingEngine : Engine where
  host := {
    registry := ⟨Table.ofList [("sample", ⟨Table.ofList [
      ("lose", { name := "lose", method := "lose", body := lose }),
      ("go", { name := "go", method := "go", body := keepAndLose })]⟩)]⟩
    settings := {} }
  world := { accounts := Table.ofList [([1], { balance := 5, code := some "sample" })] }

def keepingCall : Call := .unpaid [2] [1] "go" 10000

/-- The journal has both writes, and that of the frame which is undone explains nothing. -/
theorem execute_accounts_keeping :
    let e' := (execute keepingCall keepingEngine).2
    Wrote keepingEngine.host keepingEngine.world [] e'.journal [1] (Utf8.encode "kept") ∧
      Event.stored (Utf8.encode "lost") ∈ e'.journal ∧ e'.world.storageGet [1] (Utf8.encode "lost") = [] ∧
      ∃ a', e'.world.account? [9] = some a' ∧ a'.balance = 3 ∧ a'.nonce = 0 ∧ a'.code = none ∧
        a'.owner = none ∧ a'.storage = Table.empty := by
  intro e'
  obtain ⟨hkept, hopened, -⟩ := execute_accounts keepingEngine keepingCall
  refine ⟨?_, List.mem_of_getElem? (i := 3) rfl, rfl, ?_⟩
  · obtain ⟨a', ha', -, -, -, -, hkeys⟩ := hkept [1] _ rfl
    have hstored : e'.world.account? [1] = some ((e'.world.account? [1]).getD {}) := rfl
    obtain rfl : (e'.world.account? [1]).getD {} = a' := Option.some.inj (hstored.symm.trans ha')
    exact hkeys _ fun hsame => by cases hsame
  · exact ⟨_, rfl, rfl, hopened [9] _ rfl rfl⟩

end Engine

end TrialLedger
