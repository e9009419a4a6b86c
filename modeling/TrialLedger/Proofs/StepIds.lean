import TrialLedger.Proofs.Fixture.Gained
import TrialLedger.Proofs.Interpretation
import TrialLedger.Proofs.Json.Printer

/-! Ids of steps. A transaction or a check that has no id may be given one, wherever it stands among the members of
the step: the scenario is read as before but for that id and the hash that is made from it. From a ragged id no hash
can be made. Steps that set accounts are refused with any id. No two transactions of a scenario are hashed from one
text, for the text opens with the position of the step. -/

namespace TrialLedger

open Fixture Json

/-! ### Calls -/

/-- Whether a draft is refused does not depend on its hash. -/
theorem Call.Draft.validate_txHash (d : Call.Draft) (txHash : Bytes) :
    ({ d with txHash } : Call.Draft).validate = d.validate.map fun c => { c with txHash } := by
  have hnegatives : ({ d with txHash } : Call.Draft).negatives = d.negatives := rfl
  unfold Call.Draft.validate
  rw [hnegatives]
  cases d.negatives with
  | cons _ _ => rfl
  | nil =>
    dsimp only
    split
    · rfl
    · split <;> rfl

namespace Fixture

variable {ctx : Context}

theorem completed_txHash (path : Text) (d : Call.Draft) (txHash : Bytes) :
    completed path { d with txHash } = (completed path d).map fun c => { c with txHash } := by
  rw [completed, Call.Draft.validate_txHash, completed]
  cases d.validate <;> rfl

theorem map_bind {α β γ : Type} (x : Read α) (f : α → Read β) (g : β → γ) :
    (x >>= f).map g = x >>= fun a => (f a).map g := by
  cases x <;> rfl

/-- A call is read alike under every hash. -/
theorem readCall_txHash (path : Text) (txHash txHash' : Bytes) (r : CallRecord) :
    readCall ctx path txHash' r = (readCall ctx path txHash r).map fun c => { c with txHash := txHash' } := by
  simp only [readCall, map_bind, ← completed_txHash]

theorem txHash_of_readCall {path : Text} {txHash : Bytes} {r : CallRecord} {c : Call}
    (h : readCall ctx path txHash r = .ok c) : c.txHash = txHash := by
  have hsame : readCall ctx path txHash r = _ := readCall_txHash path txHash txHash r
  rw [h] at hsame
  exact congrArg Call.txHash (Except.ok.inj hsame)

end Fixture

namespace Step

variable {ctx : Context} {index : Nat} {id : Text} {s : Step}

/-- The step with another id, and a transaction with the hash that is made from it. -/
def withId (index : Nat) (id : Text) : Step → Read Step
  | .setState accounts => .ok (.setState accounts)
  | .transaction kind _ call expectation => do
    return .transaction kind id { call with txHash := ← txHash index id } expectation
  | .checkState _ accounts => .ok (.checkState id accounts)

theorem id_withId {s' : Step} (h : s.kindName ≠ "setState") (hs' : s.withId index id = .ok s') : s'.id = id := by
  cases s with
  | setState _ => exact absurd rfl h
  | transaction _ _ _ _ =>
    obtain ⟨_, -, hs'⟩ := bind_eq_ok.1 hs'
    cases hs'
    rfl
  | checkState _ _ =>
    cases hs'
    rfl

/-- A hash is made from every id that has bytes. -/
theorem exists_withId (s : Step) (index : Nat) (hid : id.plain? ≠ none) : ∃ s', s.withId index id = .ok s' := by
  cases id with
  | plain id => cases s <;> exact ⟨_, rfl⟩
  | ragged t => exact absurd rfl hid

/-- What a transaction is read from. -/
theorem readTransaction_eq_ok {path : Text} {kind : TransactionKind} {r : TransactionRecord} :
    readTransaction ctx path index kind r = .ok s ↔
      ¬ (kind = .transfer ∧ r.call.function ≠ .plain "") ∧
      ∃ hash call expectation, txHash index r.id = .ok hash ∧
        readCall ctx (member path "tx") hash r.call = .ok call ∧
        (match r.expectation with
          | none => pure none
          | some e => some <$> readExpectation ctx (member path "expect") e : Read (Option Check.Expectation)) =
            .ok expectation ∧
        s = .transaction kind r.id call expectation := by
  unfold readTransaction
  split
  · rename_i hfunction
    exact iff_of_false nofun fun h => h.1 hfunction
  · rename_i hfunction
    have hpure : ∀ t : Step, (pure t : Read Step) = .ok s ↔ s = t := fun t =>
      ⟨fun h => (Except.ok.inj h).symm, fun h => congrArg Except.ok h.symm⟩
    cases r.expectation <;>
      simp only [bind_eq_ok, hpure, hfunction, not_false_eq_true, true_and, exists_and_left]

/-- A step that was read is read with another id as well, if a hash can be made from it. -/
theorem read_identified {r r' : StepRecord} (hs : read ctx index r = .ok s) (hr : r.identified id = .ok r') :
    read ctx index r' = s.withId index id := by
  cases r with
  | setState r => cases hr
  | transaction kind r =>
    cases hr
    obtain ⟨hfunction, hash, call, expectation, -, hcall, hexpectation, rfl⟩ := readTransaction_eq_ok.1 hs
    cases hhash : txHash index id with
    | error e =>
      rw [withId, hhash, read, readTransaction, if_neg hfunction, hhash]
      rfl
    | ok hash' =>
      rw [withId, hhash]
      refine readTransaction_eq_ok.2 ⟨hfunction, hash', { call with txHash := hash' }, expectation, hhash, ?_,
        hexpectation, rfl⟩
      rw [readCall_txHash _ hash, hcall]
      rfl
  | checkState r =>
    cases hr
    obtain ⟨accounts, haccounts, hs⟩ := bind_eq_ok.1 hs
    cases hs
    rw [read]
    exact bind_eq_ok.2 ⟨accounts, haccounts, rfl⟩

/-- The steps of a scenario are of the kinds of their records. -/
theorem kindName_of_read {r : StepRecord} (h : read ctx index r = .ok s) : s.kindName = r.tag := by
  cases r with
  | setState r =>
    obtain ⟨_, -, hs⟩ := bind_eq_ok.1 h
    cases hs
    rfl
  | transaction kind r =>
    obtain ⟨-, _, _, _, -, -, -, rfl⟩ := readTransaction_eq_ok.1 h
    rfl
  | checkState r =>
    obtain ⟨_, -, hs⟩ := bind_eq_ok.1 h
    cases hs
    rfl

/-- A transaction has the hash that is made from its position and its id. -/
theorem txHash_of_read {r : StepRecord} {kind : TransactionKind} {call : Call}
    {expectation : Option Check.Expectation} (h : read ctx index r = .ok (.transaction kind id call expectation)) :
    txHash index id = .ok call.txHash := by
  cases r with
  | setState r =>
    obtain ⟨_, -, hs⟩ := bind_eq_ok.1 h
    cases hs
  | transaction kind' r =>
    obtain ⟨-, _, _, _, hhash, hcall, -, hs⟩ := readTransaction_eq_ok.1 h
    cases hs
    rw [txHash_of_readCall hcall]
    exact hhash
  | checkState r =>
    obtain ⟨_, -, hs⟩ := bind_eq_ok.1 h
    cases hs

/-! ### Steps of a scenario -/

/-- A step can be exchanged for another one: it is read at its position, and nothing else changes. -/
theorem readFrom_set {records : List StepRecord} {steps : List Step} {n : Nat} {r : StepRecord}
    (h : readFrom ctx index records = .ok steps) (hr : records[n]? = some r) :
    ∃ s, steps[n]? = some s ∧ read ctx (index + n) r = .ok s ∧
      ∀ r', readFrom ctx index (records.set n r') = (read ctx (index + n) r').map (steps.set n ·) := by
  induction records generalizing index steps n with
  | nil => cases hr
  | cons first rest ih =>
    obtain ⟨s, hs, hrest⟩ := bind_eq_ok.1 h
    obtain ⟨ss, hss, hsteps⟩ := bind_eq_ok.1 hrest
    obtain rfl := Except.ok.inj hsteps
    cases n with
    | zero =>
      obtain rfl := Option.some.inj hr
      refine ⟨s, rfl, hs, fun r' => ?_⟩
      rw [List.set_cons_zero, readFrom, Nat.add_zero, hss]
      cases read ctx index r' <;> rfl
    | succ n =>
      obtain ⟨t, ht, hread, hset⟩ := ih hss hr
      rw [Nat.add_assoc, Nat.add_comm 1 n] at hread hset
      refine ⟨t, ht, hread, fun r' => ?_⟩
      rw [List.set_cons_succ, readFrom, hs, hset]
      cases read ctx (index + (n + 1)) r' <;> rfl

theorem read_of_getElem? {records : List StepRecord} {steps : List Step} {n : Nat}
    (h : readFrom ctx index records = .ok steps) (hs : steps[n]? = some s) : ∃ r, read ctx (index + n) r = .ok s := by
  have hlength := (forall₂_of_readFrom h).length_eq
  rw [List.length_zipIdx] at hlength
  obtain ⟨hn, -⟩ := List.getElem?_eq_some_iff.1 hs
  have hr : records[n]? = some records[n] := List.getElem?_eq_getElem (hlength ▸ hn)
  obtain ⟨s', hs', hread, -⟩ := readFrom_set h hr
  obtain rfl := Option.some.inj (hs.symm.trans hs')
  exact ⟨_, hread⟩

/-! ### Hashes -/

/-- A point as a character; what stands for a surrogate is no digit. -/
def charOf (p : Point) : Char := p.char?.getD '?'

/-- The text that is hashed tells the position of its transaction, whatever the ids are. -/
theorem hashText_ne {index' : Nat} (h : index ≠ index') (id id' : Text) : hashText index id ≠ hashText index' id' := by
  have hchars : ∀ (n : Nat) (id : Text),
      (hashText n id).points.map charOf = Nat.toDigits 10 n ++ ':' :: id.points.map charOf := by
    intro n id
    have hdigits : (toString n).toList = Nat.toDigits 10 n := Nat.toList_repr
    have hmap : ∀ cs : List Char, (cs.map Point.char).map charOf = cs := fun cs => by
      rw [List.map_map]
      exact List.map_id cs
    rw [hashText, Text.points_append, Text.points_append, List.map_append, List.map_append, List.append_assoc,
      Text.points, hmap, hdigits]
    rfl
  intro heq
  have hlist := congrArg (fun t : Text => t.points.map charOf) heq
  simp only [hchars] at hlist
  exact h (toDigits_append_inj (noDigit_cons rfl _) (noDigit_cons rfl _) hlist).1

end Step

namespace Scenario

variable {ctx : Fixture.Context} {path : String} {j : Json} {steps : List Step}

theorem ofJson_of_record {r : ScenarioRecord} (hr : ScenarioRecord.ofJson j = .ok r) :
    ofJson ctx path j =
      ⟨path, if r.name.isEmpty then .plain (Path.baseName path) else r.name, Step.readFrom ctx 0 r.steps⟩ := by
  rw [ofJson, hr]
  rfl

theorem ofJson_of_issues {issues : List Issue} (hr : ScenarioRecord.ofJson j = .error issues) :
    ofJson ctx path j = unreadable path (.misread path (.badRecord ScenarioRecord.model issues)) := by
  rw [ofJson, hr]
  rfl

theorem record_of_steps (h : (ofJson ctx path j).steps = .ok steps) :
    ∃ r, ScenarioRecord.ofJson j = .ok r ∧ Step.readFrom ctx 0 r.steps = .ok steps := by
  cases hr : ScenarioRecord.ofJson j with
  | error issues =>
    rw [ofJson_of_issues hr] at h
    cases h
  | ok r =>
    rw [ofJson_of_record hr] at h
    exact ⟨r, rfl, h⟩

/-- Any step of a scenario may be given an id, except for those that set accounts. Where a step has none and gains
one, it is read with that id, and a transaction with another hash, which it has if the id is no ragged text; nothing
else changes. Accounts that are set are refused with an id, for that alone. The hashes of transactions are made from
texts that tell their positions. -/
theorem step_given_id (h : (ofJson ctx path j).steps = .ok steps) :
    (∀ i id j', AtMember ["steps"] (AtIndex i (GainsId id)) j j' → ∃ s, steps[i]? = some s ∧
      (s.kindName ≠ "setState" →
        ofJson ctx path j' = { ofJson ctx path j with steps := (s.withId i id).map (steps.set i ·) } ∧
        (∀ s', s.withId i id = .ok s' → s'.id = id) ∧
        (id.plain? ≠ none → ∃ s', s.withId i id = .ok s')) ∧
      (s.kindName = "setState" → (ofJson ctx path j').steps = .error (.misread path
        (.badRecord ScenarioRecord.model [⟨["steps", toString i, "setState", "id"], .extraForbidden⟩])))) ∧
    (∀ i kind id call expectation, steps[i]? = some (.transaction kind id call expectation) →
      Step.txHash i id = .ok call.txHash) ∧
    ∀ i i' id id', i ≠ i' → Step.hashText i id ≠ Step.hashText i' id' := by
  obtain ⟨r, hr, hsteps⟩ := record_of_steps h
  refine ⟨fun i id j' hgains => ?_, fun i kind id call expectation hi => ?_, fun i i' id id' hne =>
    Step.hashText_ne hne id id'⟩
  · obtain ⟨record, hrecord, hj'⟩ := ScenarioRecord.ofJson_gainsId hgains hr
    obtain ⟨s, hs, hread, hset⟩ := Step.readFrom_set hsteps hrecord
    rw [Nat.zero_add] at hread hset
    have hkind := Step.kindName_of_read hread
    refine ⟨s, hs, fun hother => ⟨?_, fun s' => Step.id_withId hother, s.exists_withId i⟩, fun haccounts => ?_⟩
    · obtain ⟨record', hrecord'⟩ := StepRecord.exists_identified id (hkind ▸ hother)
      rw [hrecord'] at hj'
      rw [ofJson_of_record hj', ofJson_of_record hr, ← Step.read_identified hread hrecord']
      exact congrArg (Scenario.mk path _) (hset record')
    · rw [StepRecord.identified_setState id (hkind ▸ haccounts)] at hj'
      rw [ofJson_of_issues hj']
      rfl
  · obtain ⟨record, hread⟩ := Step.read_of_getElem? hsteps hi
    rw [Nat.zero_add] at hread
    exact Step.txHash_of_read hread

/-- A scenario of one step with the given members. -/
def oneStepJson (members : List (Text × Json)) : Json := .object [("steps", .list [.object members])]

theorem gainsId_oneStepJson (before after : List (Text × Json)) (id : Text)
    (hid : member? (before ++ after) "id" = none) (htxId : member? (before ++ after) "txId" = none) :
    AtMember ["steps"] (AtIndex 0 (GainsId id)) (oneStepJson (before ++ after))
      (oneStepJson (before ++ (.plain "id", .text id) :: after)) :=
  .intro [] [] (List.mem_singleton_self "steps") nofun (.intro rfl (.intro before after hid htxId))

def transferMembers : List (Text × Json) :=
  [("tx", .object [("from", .text "address:a"), ("to", .text "address:b"), ("value", .int 3)])]

/-- A transfer is read with the id that it is given. -/
theorem step_given_id_transfer :
    ∃ steps s s', (ofJson {} "pay.json" (oneStepJson (("step", .text "transfer") :: transferMembers))).steps =
        .ok steps ∧
      steps[0]? = some s ∧ s.id = .plain "" ∧ s.withId 0 "pay" = .ok s' ∧
      (ofJson {} "pay.json" (oneStepJson (("step", .text "transfer") :: ("id", .text "pay") :: transferMembers))).steps =
        .ok (steps.set 0 s') ∧ s'.id = .plain "pay" := by
  have hread : ∃ steps, (ofJson {} "pay.json" (oneStepJson (("step", .text "transfer") :: transferMembers))).steps =
      .ok steps ∧ (steps[0]?.map fun s => (s.kindName, s.id)) = some ("transfer", .plain "") := ⟨_, rfl, rfl⟩
  obtain ⟨steps, hsteps, hfirst⟩ := hread
  obtain ⟨hids, -⟩ := step_given_id hsteps
  have hgains := gainsId_oneStepJson [("step", .text "transfer")] transferMembers "pay" rfl rfl
  obtain ⟨s, hs, hother, -⟩ := hids 0 "pay" _ hgains
  rw [hs, Option.map_some, Option.some.injEq, Prod.mk.injEq] at hfirst
  obtain ⟨hread', hid, hplain⟩ := hother (by rw [hfirst.1]; decide)
  obtain ⟨s', hs'⟩ := hplain nofun
  refine ⟨steps, s, s', hsteps, hs, hfirst.2, hs', ?_, hid s' hs'⟩
  exact (congrArg Scenario.steps hread').trans (by rw [hs']; rfl)

def accountsMembers : List (Text × Json) :=
  [("accounts", .object [("address:a", .object [("balance", .int 1)])])]

/-- A step that sets accounts has no id, and the scenario is not read any more when it is given one. -/
theorem accounts_without_id :
    AtMember ["steps"] (AtIndex 0 (GainsId "setup")) (oneStepJson (("step", .text "setState") :: accountsMembers))
      (oneStepJson (("step", .text "setState") :: ("id", .text "setup") :: accountsMembers)) ∧
    (∃ steps, (ofJson {} "case.json" (oneStepJson (("step", .text "setState") :: accountsMembers))).steps = .ok steps) ∧
    (ofJson {} "case.json" (oneStepJson
      (("step", .text "setState") :: ("id", .text "setup") :: accountsMembers))).steps =
        .error (.misread "case.json" (.badRecord "ScenarioRaw" [⟨["steps", "0", "setState", "id"], .extraForbidden⟩])) :=
  ⟨gainsId_oneStepJson [("step", .text "setState")] accountsMembers "setup" rfl rfl, ⟨_, rfl⟩, rfl⟩

end Scenario

end TrialLedger
