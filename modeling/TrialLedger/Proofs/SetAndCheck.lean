import TrialLedger.Proofs.Fixture.Account
import TrialLedger.Proofs.Fixture.Shape
import TrialLedger.Scenario.Run

/-! Setting a state and checking it. A step that sets accounts and a step that checks the same accounts read one
fixture in two ways. Where no two of its entries have one key, the check reads as well, and it
finds what has been set. -/

namespace TrialLedger

open Fixture Check

variable {ctx : Context}

/-! ### Accounts that are set and expected -/

/-- The addresses that accounts are listed under. -/
def addressListing (ctx : Context) : List (Text × AccountRecord) → Option (List Bytes)
  | [] => some []
  | (k, _) :: r => do
    let address ← (readAddress ctx "" (.text k)).toOption
    return address :: (← addressListing ctx r)

/-- No two accounts have one address, and no two entries of an account have one key. -/
structure HasDistinctKeys (ctx : Context) (accounts : List (Text × AccountRecord)) : Prop where
  addresses : ∀ l ∈ addressListing ctx accounts, l.Nodup
  entries : ∀ m ∈ accounts, m.2.HasDistinctKeys ctx

/-- A pattern that expects the account that has been put. -/
def Expects (e : Bytes × AccountPattern) (x : Bytes × Account) : Prop := e.1 = x.1 ∧ e.2.Accepts x.2

/-- Accounts that can be set can be expected, each as it is set. -/
theorem readAccountEntries_of_readAccounts {path : Text} (path' : Text) {members : List (Text × Json)}
    {accounts : List (Text × AccountRecord)} {t t' : Table Bytes Account}
    (hrecords : entriesOf AccountRecord.ofJson members = .ok accounts)
    (hset : Step.readAccounts ctx path t accounts = .ok t') (hn : ∀ m ∈ accounts, m.2.HasDistinctKeys ctx) :
    ∃ loaded entries, t' = loaded.foldl (fun t e => t.put e.1 e.2) t ∧
      addressListing ctx accounts = some (loaded.map Prod.fst) ∧ (∀ m ∈ members, m.1 ≠ .plain "+") ∧
        readAccountEntries ctx path' members = .ok entries ∧ List.Forall₂ Expects entries loaded := by
  induction members generalizing accounts t with
  | nil =>
    obtain rfl := Except.ok.inj hrecords
    exact ⟨[], [], (Except.ok.inj hset).symm, rfl, nofun, rfl, .nil⟩
  | cons m r ih =>
    obtain ⟨k, j⟩ := m
    obtain ⟨record, rest, hrecord, hrest, rfl⟩ := entriesOf_cons.1 hrecords
    simp only [Step.readAccounts, bind_eq_ok] at hset
    obtain ⟨address, haddress, a, ha, hset⟩ := hset
    obtain ⟨hk, hn⟩ := List.forall_mem_cons.1 hn
    obtain ⟨loaded, entries, ht, haddresses, hplus, hentries, hexpects⟩ := ih hrest hset hn
    obtain ⟨p, hp, haccepts⟩ := readAccountPattern_accepts (keyed path' k) hrecord ha hk
    have haddress₀ := ok_of_unplaced_eq (unplaced_readAddress ctx _ "" _) haddress
    have haddress' := ok_of_unplaced_eq (unplaced_readAddress ctx _ (keyed path' k) _) haddress
    have hname := ne_plus_of_readBytes (readBytes_of_readAddress haddress)
    refine ⟨(address, a) :: loaded, (address, p) :: entries, ht, ?_, List.forall_mem_cons.2 ⟨hname, hplus⟩, ?_,
      .cons ⟨rfl, haccepts⟩ hexpects⟩
    · rw [addressListing, haddress₀, haddresses]
      rfl
    · simp only [readAccountEntries, haddress', hp, hentries]
      rfl

/-! ### The world that is set -/

theorem setAccounts_empty (t : Table Bytes Account) : Progress.setAccounts {} t = { accounts := t } := by
  have hfold : ∀ (l : List (Bytes × Account)) (w : World), l.foldl (fun w e => w.setAccount e.1 e.2) w =
      { w with accounts := l.foldl (fun t e => t.put e.1 e.2) w.accounts } := by
    intro l
    induction l with
    | nil => exact fun _ => rfl
    | cons e r ih => exact fun w => ih _
  exact (hfold t.entries {}).trans (congrArg (fun accounts => ({ accounts } : World)) t.ofList_entries)

/-- Accounts are as expected in the world that they have been set in. -/
theorem accepts_of_expects {entries : List (Bytes × AccountPattern)} {loaded : List (Bytes × Account)}
    (hn : (loaded.map Prod.fst).Nodup) (h : List.Forall₂ Expects entries loaded) (allowMore : Bool) :
    AccountsPattern.Accepts ⟨entries, allowMore⟩ { accounts := Table.ofList loaded } := by
  have hget : ∀ {b : Bytes} {a : Account}, (Table.ofList loaded).get? b = some a ↔ (b, a) ∈ loaded := by
    intro b a
    rw [← Table.mem_entries_iff (e := (b, a)), Table.entries_ofList hn]
  refine ⟨fun e he => ?_, fun _ b hb => ?_, fun _ _ => rfl⟩
  · obtain ⟨x, hx, hkey, haccepts⟩ := exists_mem_of_forall₂ h he
    exact ⟨x.2, hget.2 (hkey ▸ hx), haccepts⟩
  · obtain ⟨a, ha⟩ := Option.ne_none_iff_exists'.1 hb
    obtain ⟨e, he, hkey, -⟩ := exists_mem_of_forall₂ h.flip (hget.1 ha)
    exact List.mem_map.2 ⟨e, he, hkey⟩

/-! ### The steps -/

def scenarioJson (steps : List Json) : Json := .object [("steps", .list steps)]

def stepJson (kind : String) (accounts : Json) : Json := .object [("step", .text kind), ("accounts", accounts)]

/-- A record of which a single member is not left out is read as that member is. -/
theorem apply_single {α β : Type} (f : α → β) (x : Checked α) :
    Checked.apply (Checked.apply (.ok (Function.const Unit)) (Checked.apply (.ok f) x)) (.ok ()) = f <$> x := by
  cases x <;> rfl

/-- The member that tells the kind of a step changes nothing about the others. -/
theorem apply_tagged {α β : Type} (f : α → β) (x : Checked α) :
    Checked.apply (Checked.apply (.ok (Function.const Unit)) (Checked.apply (.ok id) (Checked.apply (.ok f) x)))
      (.ok ()) = f <$> x := by
  cases x <;> rfl

theorem ofJson_scenarioJson (steps : List Json) : ScenarioRecord.ofJson (scenarioJson steps) =
    ScenarioRecord.mk "" none none <$> (itemsFrom StepRecord.ofJson 0 steps).under "steps" :=
  apply_single (ScenarioRecord.mk "" none none) _

theorem ofJson_setState (accounts : Json) : StepRecord.ofJson (stepJson "setState" accounts) =
    (StepRecord.setState <$> AccountsRecord.mk none <$>
      (mapValue AccountRecord.ofJson accounts).under "accounts").under "setState" :=
  congrArg (fun x => Checked.under "setState" (StepRecord.setState <$> x)) (apply_tagged (AccountsRecord.mk none) _)

theorem ofJson_checkState (members : List (Text × Json)) :
    StepRecord.ofJson (stepJson "checkState" (.object members)) = .ok (.checkState ⟨"", none, members⟩) := by
  have hentries : ∀ l, entriesOf anyValue l = .ok l := by
    intro l
    induction l with
    | nil => rfl
    | cons m r ih =>
      rw [entriesOf, ih]
      rfl
  have hread : StepRecord.ofJson (stepJson "checkState" (.object members)) =
      (StepRecord.checkState <$> CheckRecord.mk "" none <$>
        (entriesOf anyValue members).under "accounts").under "checkState" :=
    congrArg (fun x => Checked.under "checkState" (StepRecord.checkState <$> x))
      (apply_tagged (CheckRecord.mk "" none) _)
  rw [hread, hentries]
  rfl

/-- A scenario of a single step that sets accounts is read when these are. -/
theorem steps_setState {path : String} {accounts : Json} {steps : List Step}
    (h : (Scenario.ofJson ctx path (scenarioJson [stepJson "setState" accounts])).steps = .ok steps) :
    ∃ members records t, accounts = .object members ∧ entriesOf AccountRecord.ofJson members = .ok records ∧
      Step.readAccounts ctx (member (item "steps" 0) "accounts") Table.empty records = .ok t ∧
        steps = [.setState t] := by
  rw [Scenario.ofJson, ofJson_scenarioJson, itemsFrom, ofJson_setState] at h
  cases hmap : mapValue AccountRecord.ofJson accounts with
  | error is =>
    rw [hmap] at h
    cases h
  | ok records =>
    rw [hmap] at h
    replace h : Step.readFrom ctx 0 [.setState ⟨none, records⟩] = .ok steps := h
    simp only [Step.readFrom, Step.read, bind_eq_ok] at h
    obtain ⟨s, ⟨t, ht, hs⟩, rest, hrest, hsteps⟩ := h
    obtain rfl := Except.ok.inj hs
    obtain rfl := Except.ok.inj hrest
    obtain rfl := Except.ok.inj hsteps
    cases accounts with
    | object members => exact ⟨members, records, t, rfl, hmap, ht, rfl⟩
    | _ => cases hmap

theorem steps_setState_checkState (path : String) {members : List (Text × Json)}
    {records : List (Text × AccountRecord)} {t : Table Bytes Account} {p : AccountsPattern}
    (hrecords : entriesOf AccountRecord.ofJson members = .ok records)
    (hset : Step.readAccounts ctx (member (item "steps" 0) "accounts") Table.empty records = .ok t)
    (hcheck : readAccountsPattern ctx (member (item "steps" 1) "accounts") members = .ok p) :
    (Scenario.ofJson ctx path (scenarioJson
      [stepJson "setState" (.object members), stepJson "checkState" (.object members)])).steps =
      .ok [.setState t, .checkState "" p] := by
  have hmap : mapValue AccountRecord.ofJson (.object members) = .ok records := hrecords
  rw [Scenario.ofJson, ofJson_scenarioJson, itemsFrom, itemsFrom, ofJson_setState, ofJson_checkState, hmap]
  change Step.readFrom ctx 0 [.setState ⟨none, records⟩, .checkState ⟨"", none, members⟩] = _
  simp only [Step.readFrom, Step.read, hset, hcheck]
  rfl

theorem runFrom_cons {index : Nat} {s : Step} {rest : List Step} {p p' : Progress}
    (h : Progress.step index s p = (.ok none, p')) :
    p.runFrom index (s :: rest) = p'.recordHash >>= fun q => q.runFrom (index + 1) rest := by
  rw [Progress.runFrom, h]

/-- A run that sets a state and finds it passes, if the state can be digested. -/
theorem run_setState_checkState {s : Scenario} {t : Table Bytes Account} {p : AccountsPattern}
    (hsteps : s.steps = .ok [.setState t, .checkState "" p])
    (hp : p.mismatch (Progress.setAccounts {} t) = .ok none) (host : Host) :
    (s.run host).map (fun r => (r.verdict.outcome, r.verdict.processed)) =
      ((Progress.setAccounts {} t).checkWritable.mapError Run.Error.digest).map fun _ => (.passed, 2) := by
  let w := Progress.setAccounts {} t
  let after : List String → Progress := fun hashes => { engine := { host, world := w }, hashes }
  have hset : Progress.step 0 (.setState t) (Progress.start host) = (.ok none, after []) := rfl
  have hcheck : ∀ hashes, Progress.step 1 (.checkState "" p) (after hashes) = (.ok none, after hashes) := by
    intro hashes
    rw [Progress.step, show (after hashes).engine.world = w from rfl, hp]
    rfl
  have hrecord : ∀ hashes, (after hashes).recordHash = w.checkWritable.map fun _ => after (hashes ++ [w.digest]) := by
    intro hashes
    rw [Progress.recordHash, World.digest?, show (after hashes).engine.world = w from rfl]
    cases w.checkWritable <;> rfl
  have hrun : (Progress.start host).runFrom 0 [.setState t, .checkState "" p] =
      w.checkWritable.map fun _ => (.passed, 2, after [w.digest, w.digest]) := by
    rw [runFrom_cons hset, hrecord]
    cases hw : w.checkWritable with
    | error f => rfl
    | ok =>
      change (after [w.digest]).runFrom 1 [.checkState "" p] = _
      rw [runFrom_cons (hcheck _), hrecord, hw]
      rfl
  rw [Scenario.run, hsteps]
  simp only [hrun]
  change _ = (w.checkWritable.mapError Run.Error.digest).map fun _ => _
  cases w.checkWritable <;> rfl

/-- A state passes the check that is written like it: where the keys of its entries are distinct, the step that
checks the accounts is read, and a run that sets them first finds them. -/
theorem checkState_of_setState {path : String} {accounts : Json} {steps : List Step}
    (hset : (Scenario.ofJson ctx path (scenarioJson [stepJson "setState" accounts])).steps = .ok steps)
    (hn : ∀ records, mapValue AccountRecord.ofJson accounts = .ok records → HasDistinctKeys ctx records) (host : Host) :
    ∃ t p, steps = [.setState t] ∧
      (Scenario.ofJson ctx path (scenarioJson [stepJson "setState" accounts, stepJson "checkState" accounts])).steps =
        .ok [.setState t, .checkState "" p] ∧
      p.mismatch (Progress.setAccounts {} t) = .ok none ∧
      ((Scenario.ofJson ctx path (scenarioJson
          [stepJson "setState" accounts, stepJson "checkState" accounts])).run host).map
        (fun r => (r.verdict.outcome, r.verdict.processed)) =
          ((Progress.setAccounts {} t).checkWritable.mapError Run.Error.digest).map fun _ => (.passed, 2) := by
  obtain ⟨members, records, t, rfl, hrecords, ht, rfl⟩ := steps_setState hset
  have hdistinct := hn records hrecords
  obtain ⟨loaded, entries, hloaded, haddresses, hplus, hentries, hexpects⟩ :=
    readAccountEntries_of_readAccounts (member (item "steps" 1) "accounts") hrecords ht hdistinct.entries
  have hcheck : readAccountsPattern ctx (member (item "steps" 1) "accounts") members = .ok ⟨entries, false⟩ := by
    rw [readAccountsPattern, splitPlus_eq hplus]
    simp only [hentries]
    rfl
  have hmismatch : AccountsPattern.mismatch ⟨entries, false⟩ (Progress.setAccounts {} t) = .ok none := by
    rw [setAccounts_empty, hloaded]
    exact AccountsPattern.mismatch_eq_ok_none.2 (accepts_of_expects (hdistinct.addresses _ haddresses) hexpects false)
  have hsteps := steps_setState_checkState path hrecords ht hcheck
  exact ⟨t, ⟨entries, false⟩, rfl, hsteps, hmismatch, run_setState_checkState hsteps hmismatch host⟩

/-- A contract that holds two kinds of tokens, and its owner. -/
def stallJson : Json := .object [
  ("sc:stall", .object [
    ("nonce", .int 3), ("balance", .text "1,000"),
    ("dct", .object [
      ("str:TOK-000001", .text "0x0a"),
      ("str:NFT-000001", .object [("instances", .list [
        .object [("nonce", .text "1"), ("balance", .int 2)], .object [("nonce", .int 2), ("balance", .null)]])])]),
    ("storage", .object [("str:sum", .list [.text "u8:1", .bool true]), ("", .text "")]),
    ("code", .text "file:stall.wasm"), ("owner", .text "address:owner")]),
  ("address:owner", .object [("dct", .null)])]

/-- The records of the accounts, as they are written. -/
def stallRecords : List (Text × AccountRecord) := (mapValue AccountRecord.ofJson stallJson).toOption.getD []

theorem hasDistinctKeys_stall : HasDistinctKeys {} stallRecords := by
  have hentries : ∀ m ∈ stallRecords, (∀ l ∈ dctListing {} m.2.dct.members, (l.map Prod.fst).Nodup) ∧
      ∀ l ∈ storageListing {} m.2.storage.members, (l.map Prod.fst).Nodup := by decide +kernel
  exact ⟨by decide +kernel, fun m hm => ⟨(hentries m hm).1, (hentries m hm).2⟩⟩

theorem checkState_of_setState_stall :
    (∃ records, mapValue AccountRecord.ofJson stallJson = .ok records ∧ HasDistinctKeys {} records) ∧
      ∃ t p, (Scenario.ofJson {} "stall.json" (scenarioJson [stepJson "setState" stallJson])).steps =
          .ok [.setState t] ∧
        (Scenario.ofJson {} "stall.json" (scenarioJson
          [stepJson "setState" stallJson, stepJson "checkState" stallJson])).steps =
          .ok [.setState t, .checkState "" p] ∧
        p.mismatch (Progress.setAccounts {} t) = .ok none := by
  have hrecords : mapValue AccountRecord.ofJson stallJson = .ok stallRecords := rfl
  have hn : ∀ records, mapValue AccountRecord.ofJson stallJson = .ok records → HasDistinctKeys {} records := by
    intro records h
    rw [← Except.ok.inj (hrecords.symm.trans h)]
    exact hasDistinctKeys_stall
  obtain ⟨steps, hset⟩ : ∃ steps,
      (Scenario.ofJson {} "stall.json" (scenarioJson [stepJson "setState" stallJson])).steps = .ok steps := ⟨_, rfl⟩
  obtain ⟨t, p, rfl, hsteps, hmismatch, -⟩ := checkState_of_setState hset hn ⟨{}, {}⟩
  exact ⟨⟨stallRecords, hrecords, hasDistinctKeys_stall⟩, t, p, hset, hsteps, hmismatch⟩

end TrialLedger
