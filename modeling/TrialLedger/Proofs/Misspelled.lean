import TrialLedger.Proofs.Fixture.Misspelled
import TrialLedger.Proofs.Fixture.Place
import TrialLedger.Scenario.Basic

/-! A scenario with a misspelled member is not read: where a scenario is read, the same one with a member of an
unknown name in one of its records tells a place where it is wrong. The entries of a list of instances are the
exception. They are asked for two members, and whatever else they have goes unnoticed. -/

namespace TrialLedger

namespace Fixture

open Json Check

/-- A reading that tells a place where something is wrong. -/
def Rejected {α : Type} (x : Read α) : Prop := ∃ place flaw, x = .error (.misread place flaw)

namespace Rejected

variable {α β : Type} {x : Read α}

theorem misread (place : Text) (flaw : Flaw) : Rejected (misread place flaw : Read α) := ⟨place, flaw, rfl⟩

theorem bind (h : Rejected x) (f : α → Read β) : Rejected (x >>= f) := by
  obtain ⟨place, flaw, rfl⟩ := h
  exact ⟨place, flaw, rfl⟩

theorem map (h : Rejected x) (f : α → β) : Rejected (f <$> x) := by
  obtain ⟨place, flaw, rfl⟩ := h
  exact ⟨place, flaw, rfl⟩

theorem bind_ok {a : α} {f : α → Read β} (hx : x = .ok a) (h : Rejected (f a)) : Rejected (x >>= f) := by
  rwa [hx]

end Rejected

/-- Of two related values, the second one is rejected if the first one is read. -/
def Rejects {α β : Type} (read : Text → α → Read β) (R : α → α → Prop) : Prop :=
  ∀ ⦃path a a' b⦄, R a a' → read path a = .ok b → Rejected (read path a')

variable {ctx : Context}

theorem Rejects.items {α β : Type} {read : Text → α → Read β} {R : α → α → Prop} (h : Rejects read R)
    {path : Text} {i : Nat} {l l' : List α} {bs : List β} (hl : Altered R l l')
    (hbs : readItems read path i l = .ok bs) : Rejected (readItems read path i l') := by
  obtain ⟨before, after, hR⟩ := hl
  -- what stands before the changed item is read as it was, and what stands after it is not come to
  induction before generalizing i bs with
  | nil =>
    obtain ⟨b, hb, -⟩ := bind_eq_ok.1 hbs
    exact (h hR hb).bind _
  | cons a before ih =>
    obtain ⟨b, hb, hrest⟩ := bind_eq_ok.1 hbs
    obtain ⟨rest, hrest, -⟩ := bind_eq_ok.1 hrest
    exact .bind_ok hb ((ih hrest).bind _)

/-- A record at a place that is not rejected is still read, with whatever has changed. -/
theorem readRecord_rejected_or {α : Type} {read : Json → Checked α} {R : Json → Json → Prop} {S : α → α → Prop}
    (h : Carries read R S) {path : Text} {model : String} {j j' : Json} {a : α} (hR : R j j')
    (ha : readRecord path model (read j) = .ok a) :
    Rejected (readRecord path model (read j')) ∨ ∃ a', readRecord path model (read j') = .ok a' ∧ S a a' := by
  cases hj : read j with
  | error issues =>
    rw [hj] at ha
    cases ha
  | ok b =>
    rw [hj] at ha
    cases ha
    cases hj' : read j' with
    | error issues => exact .inl ⟨_, _, rfl⟩
    | ok a' => exact .inr ⟨a', rfl, h hR hj hj'⟩

/-! ### Logs -/

theorem isText_of_extended {known : List String} {j j' : Json} (h : Extended known j j') (s : String) :
    j.isText s = false ∧ j'.isText s = false := by
  cases h
  exact ⟨rfl, rfl⟩

theorem readLogPattern_rejects : Rejects (readLogPattern ctx) LogRecord.Misspelled := by
  intro path j j' p hR hp
  obtain ⟨hj, hj'⟩ := isText_of_extended hR "*"
  simp only [readLogPattern, hj, hj', Bool.false_eq_true, if_false] at hp ⊢
  obtain ⟨r, hr, -⟩ := bind_eq_ok.1 hp
  obtain h | ⟨_, -, hnever⟩ := readRecord_rejected_or (LogRecord.shape.refuses_extended LogRecord.model) hR hr
  · exact h.bind _
  · exact hnever.elim

/-- The last item is a sign or a log in both lists. -/
theorem endsWithPlus_altered {before after : List Json} {a a' : Json} (h : LogRecord.Misspelled a a') :
    endsWithPlus (before ++ a' :: after) = endsWithPlus (before ++ a :: after) := by
  obtain ⟨ha, ha'⟩ := isText_of_extended h "+"
  simp only [endsWithPlus, List.getLast?_append, List.getLast?_cons, Option.some_or]
  cases after.getLast? with
  | none => exact ha'.trans ha.symm
  | some b => rfl

theorem dropLast_altered {before after : List Json} {a a' : Json} (h : LogRecord.Misspelled a a')
    (hplus : endsWithPlus (before ++ a :: after) = true) :
    Altered LogRecord.Misspelled (before ++ a :: after).dropLast (before ++ a' :: after).dropLast := by
  cases after with
  | nil =>
    simp [endsWithPlus, (isText_of_extended h "+").1] at hplus
  | cons b r =>
    simp only [List.dropLast_append_cons, List.dropLast_cons_cons]
    exact .intro before _ h

theorem readLogsPattern_rejects : Rejects (readLogsPattern ctx) (AtItem LogRecord.Misspelled) := by
  rintro path _ _ p ⟨⟨before, after, hR⟩⟩ hp
  simp only [readLogsPattern, Json.isText, Bool.false_eq_true, if_false, endsWithPlus_altered hR] at hp ⊢
  split at hp
  · rename_i hplus
    obtain ⟨ps, hps, -⟩ := bind_eq_ok.1 hp
    rw [if_pos hplus]
    exact (Rejects.items readLogPattern_rejects (dropLast_altered hR hplus) hps).bind _
  · rename_i hplus
    obtain ⟨ps, hps, -⟩ := bind_eq_ok.1 hp
    rw [if_neg hplus]
    exact (Rejects.items readLogPattern_rejects (.intro before after hR) hps).bind _

theorem readExpectation_rejects : Rejects (readExpectation ctx) ExpectationRecord.Spoiled := by
  rintro path r r' e ⟨hlogs, hr⟩ he
  obtain ⟨out, hout, he⟩ := bind_eq_ok.1 he
  obtain ⟨status, hstatus, he⟩ := bind_eq_ok.1 he
  obtain ⟨message, hmessage, he⟩ := bind_eq_ok.1 he
  obtain ⟨logs, hread, -⟩ := bind_eq_ok.1 he
  rw [hr]
  exact .bind_ok hout (.bind_ok hstatus (.bind_ok hmessage ((readLogsPattern_rejects hlogs hread).bind _)))

/-! ### Holdings -/

/-- Members with a name that holdings do not have are refused, whatever the others are. -/
theorem readHoldings_rejects : Rejects (readHoldings ctx) HoldingsMisspelled := by
  rintro path _ _ held ⟨before, after, name, j, hname⟩ -
  unfold readHoldings
  dsimp only
  split
  · rename_i hnames
    -- holdings with no name but `instances` would have the misspelled one under it
    rw [List.filter_eq_nil_iff] at hnames
    have hinstances := hnames name (by simp)
    simp only [bne_iff_ne, ne_eq, not_not] at hinstances
    exact absurd (hinstances ▸ List.mem_singleton_self _) hname
  · exact .misread _ _

theorem readDct_rejects {path : Text} {t t' : Holdings} {ms ms' : List (Text × Json)} {keys : Text → Prop}
    (h : Altered (SameKey keys HoldingsMisspelled) ms ms') (ht : readDct ctx path t ms = .ok t') :
    Rejected (readDct ctx path t ms') := by
  obtain ⟨before, after, hk, hR⟩ := h
  induction before generalizing t with
  | nil =>
    obtain ⟨id, hid, ht⟩ := bind_eq_ok.1 ht
    obtain ⟨held, hheld, -⟩ := bind_eq_ok.1 ht
    exact .bind_ok hid ((readHoldings_rejects hR hheld).bind _)
  | cons m before ih =>
    obtain ⟨k, j⟩ := m
    obtain ⟨id, hid, ht⟩ := bind_eq_ok.1 ht
    obtain ⟨held, hheld, ht⟩ := bind_eq_ok.1 ht
    exact .bind_ok hid (.bind_ok hheld (ih ht))

theorem readDctEntries_rejects {path : Text} {entries : List ((Bytes × Int) × Pattern Int)}
    {ms ms' : List (Text × Json)} {keys : Text → Prop} (h : Altered (SameKey keys HoldingsMisspelled) ms ms')
    (hms : readDctEntries ctx path ms = .ok entries) : Rejected (readDctEntries ctx path ms') := by
  obtain ⟨before, after, hk, hR⟩ := h
  induction before generalizing entries with
  | nil =>
    obtain ⟨id, hid, hheld⟩ := bind_eq_ok.1 hms
    obtain ⟨hj, hj'⟩ := isText_of_extended hR "*"
    simp only [hj, Bool.false_eq_true, if_false] at hheld
    obtain ⟨held, hheld, -⟩ := bind_eq_ok.1 hheld
    refine .bind_ok hid ?_
    simp only [hj', Bool.false_eq_true, if_false]
    exact (readHoldings_rejects hR hheld).bind _
  | cons m before ih =>
    obtain ⟨k, j⟩ := m
    obtain ⟨id, hid, hheld⟩ := bind_eq_ok.1 hms
    refine .bind_ok hid ?_
    split at hheld
    · cases hheld
    · rename_i hstar
      rw [if_neg hstar]
      obtain ⟨held, hheld, hrest⟩ := bind_eq_ok.1 hheld
      obtain ⟨rest, hrest, -⟩ := bind_eq_ok.1 hrest
      exact .bind_ok hheld ((ih hrest).bind _)

/-- An entry that is none of the signs is one of those that are listed. -/
theorem splitPlus_altered {α : Type} {R : α → α → Prop} {ms ms' : List (Text × α)}
    (h : Altered (SameKey (· ≠ .plain "+") R) ms ms') :
    Altered (SameKey (· ≠ .plain "+") R) (splitPlus ms).1 (splitPlus ms').1 := by
  obtain ⟨before, after, hk, hR⟩ := h
  simp only [splitPlus, List.filter_append, List.filter_cons, bne_iff_ne.2 hk, if_true]
  refine .intro _ _ (.intro ?_ hR)
  exact hk

theorem readMapPattern_rejects {path : Text} {j j' : Json} {p : MapPattern (Bytes × Int) Int}
    (h : AtEntry (· ≠ .plain "+") HoldingsMisspelled j j')
    (hp : readMapPattern (readDctEntries ctx path) path j = .ok p) :
    Rejected (readMapPattern (readDctEntries ctx path) path j') := by
  obtain ⟨hentries⟩ := h
  obtain ⟨members, hmembers, hp⟩ := bind_eq_ok.1 hp
  obtain rfl := Except.ok.inj hmembers
  obtain ⟨entries, hread, -⟩ := bind_eq_ok.1 hp
  exact .bind_ok rfl ((readDctEntries_rejects (splitPlus_altered hentries) hread).bind _)

/-! ### Accounts -/

theorem readAccount_rejects {keys : Text → Prop} : Rejects (readAccount ctx) (AccountRecord.Spoiled keys) := by
  rintro path r r' a ⟨hdct, hr⟩ ha
  obtain ⟨nonce, hnonce, ha⟩ := bind_eq_ok.1 ha
  obtain ⟨balance, hbalance, ha⟩ := bind_eq_ok.1 ha
  obtain ⟨held, hheld, ha⟩ := bind_eq_ok.1 ha
  obtain ⟨dct, hread, -⟩ := bind_eq_ok.1 ha
  rw [hr]
  generalize r.dct = j, r'.dct = j' at hdct hheld ⊢
  obtain ⟨hentries⟩ := hdct
  obtain rfl := Except.ok.inj hheld
  exact .bind_ok hnonce (.bind_ok hbalance (.bind_ok rfl ((readDct_rejects hentries hread).bind _)))

theorem readAccountPattern_rejects :
    Rejects (readAccountPattern ctx) (AccountRecord.Misspelled (· ≠ .plain "+")) := by
  intro path j j' p hR hp
  have hstar : j.isText "*" = false ∧ j'.isText "*" = false := by
    cases hR with
    | inl h => exact isText_of_extended h "*"
    | inr h =>
      cases h
      exact ⟨rfl, rfl⟩
  simp only [readAccountPattern, hstar.1, hstar.2, Bool.false_eq_true, if_false] at hp ⊢
  obtain ⟨r, hr, hp⟩ := bind_eq_ok.1 hp
  obtain h | ⟨r', hr', hdct, heq⟩ := readRecord_rejected_or (AccountRecord.carries _) hR hr
  · exact h.bind _
  · obtain ⟨code, hcode, hp⟩ := bind_eq_ok.1 hp
    obtain ⟨nonce, hnonce, hp⟩ := bind_eq_ok.1 hp
    obtain ⟨balance, hbalance, hp⟩ := bind_eq_ok.1 hp
    obtain ⟨dct, hread, -⟩ := bind_eq_ok.1 hp
    refine .bind_ok hr' ?_
    rw [heq]
    exact .bind_ok hcode (.bind_ok hnonce (.bind_ok hbalance ((readMapPattern_rejects hdct hread).bind _)))

theorem readAccounts_rejects {path : Text} {t t' : Table Bytes Account} {l l' : List (Text × AccountRecord)}
    {keys keys' : Text → Prop} (h : Altered (SameKey keys (AccountRecord.Spoiled keys')) l l')
    (ht : Step.readAccounts ctx path t l = .ok t') : Rejected (Step.readAccounts ctx path t l') := by
  obtain ⟨before, after, hk, hR⟩ := h
  induction before generalizing t with
  | nil =>
    obtain ⟨address, haddress, ht⟩ := bind_eq_ok.1 ht
    obtain ⟨a, ha, -⟩ := bind_eq_ok.1 ht
    exact .bind_ok haddress ((readAccount_rejects hR ha).bind _)
  | cons e before ih =>
    obtain ⟨address, haddress, ht⟩ := bind_eq_ok.1 ht
    obtain ⟨a, ha, ht⟩ := bind_eq_ok.1 ht
    exact .bind_ok haddress (.bind_ok ha (ih ht))

theorem readAccountEntries_rejects {path : Text} {entries : List (Bytes × AccountPattern)}
    {l l' : List (Text × Json)} {keys : Text → Prop}
    (h : Altered (SameKey keys (AccountRecord.Misspelled (· ≠ .plain "+"))) l l')
    (hl : readAccountEntries ctx path l = .ok entries) : Rejected (readAccountEntries ctx path l') := by
  obtain ⟨before, after, hk, hR⟩ := h
  induction before generalizing entries with
  | nil =>
    obtain ⟨address, haddress, hl⟩ := bind_eq_ok.1 hl
    obtain ⟨p, hp, -⟩ := bind_eq_ok.1 hl
    exact .bind_ok haddress ((readAccountPattern_rejects hR hp).bind _)
  | cons e before ih =>
    obtain ⟨address, haddress, hl⟩ := bind_eq_ok.1 hl
    obtain ⟨p, hp, hl⟩ := bind_eq_ok.1 hl
    obtain ⟨rest, hrest, -⟩ := bind_eq_ok.1 hl
    exact .bind_ok haddress (.bind_ok hp ((ih hrest).bind _))

/-! ### Steps -/

theorem readStep_rejects {index : Nat} {r r' : StepRecord} {s : Step} (h : StepRecord.Spoiled r r')
    (hs : Step.read ctx index r = .ok s) : Rejected (Step.read ctx index r') := by
  cases h with
  | setState h =>
    obtain ⟨t, ht, -⟩ := bind_eq_ok.1 hs
    exact (readAccounts_rejects h ht).bind _
  | transaction kind h =>
    obtain ⟨e, e', he, rfl, hspoiled⟩ := h
    simp only [Step.read, Step.readTransaction] at hs ⊢
    split at hs
    · cases hs
    · rename_i hkind
      rw [if_neg hkind]
      obtain ⟨hash, hhash, hs⟩ := bind_eq_ok.1 hs
      obtain ⟨call, hcall, hs⟩ := bind_eq_ok.1 hs
      simp only [he] at hs
      obtain ⟨o, ho, -⟩ := bind_eq_ok.1 hs
      cases hread : readExpectation ctx (member (item "steps" index) "expect") e with
      | error err =>
        rw [hread] at ho
        cases ho
      | ok expectation =>
        exact .bind_ok hhash (.bind_ok hcall ((readExpectation_rejects hspoiled hread).map _ |>.bind _))
  | checkState h =>
    obtain ⟨p, hp, -⟩ := bind_eq_ok.1 hs
    obtain ⟨entries, hentries, -⟩ := bind_eq_ok.1 hp
    exact ((readAccountEntries_rejects (splitPlus_altered h) hentries).bind _).bind _

theorem readFrom_rejects {index : Nat} {l l' : List StepRecord} {steps : List Step}
    (h : Altered StepRecord.Spoiled l l') (hl : Step.readFrom ctx index l = .ok steps) :
    Rejected (Step.readFrom ctx index l') := by
  obtain ⟨before, after, hR⟩ := h
  induction before generalizing index steps with
  | nil =>
    obtain ⟨s, hs, -⟩ := bind_eq_ok.1 hl
    exact (readStep_rejects hR hs).bind _
  | cons r before ih =>
    obtain ⟨s, hs, hl⟩ := bind_eq_ok.1 hl
    obtain ⟨rest, hrest, -⟩ := bind_eq_ok.1 hl
    exact .bind_ok hs ((ih hrest).bind _)

/-! ### Instances -/

/-- An entry of a list of instances with a misspelled member. -/
def InstanceMisspelled : Json → Json → Prop := Extended ["nonce", "balance"]

theorem readInstance_extended {path : Text} {j j' : Json} (h : InstanceMisspelled j j') :
    readInstance ctx path j' = readInstance ctx path j := by
  obtain ⟨before, after, name, i, hname⟩ := h
  have hlookup : ∀ n ∈ ["nonce", "balance"], member? (before ++ (name, i) :: after) n = member? (before ++ after) n :=
    fun n hn => member?_insert_other i fun heq => hname (heq ▸ List.mem_map_of_mem hn)
  simp only [readInstance, hlookup "nonce" (by simp), hlookup "balance" (by simp)]

theorem readItems_altered {α β : Type} {read : Text → α → Read β} {R : α → α → Prop}
    (h : ∀ path a a', R a a' → read path a' = read path a) {l l' : List α} (hl : Altered R l l') (path : Text)
    (i : Nat) : readItems read path i l' = readItems read path i l := by
  obtain ⟨before, after, hR⟩ := hl
  induction before generalizing i with
  | nil => simp only [List.nil_append, readItems, h _ _ _ hR]
  | cons a before ih => simp only [List.cons_append, readItems, ih]

/-- Whatever instances have besides a nonce and a balance, the same is read of them. -/
theorem readHoldings_instances {path : Text} {j j' : Json}
    (h : AtMember ["instances"] (AtItem InstanceMisspelled) j j') :
    readHoldings ctx path j' = readHoldings ctx path j := by
  obtain ⟨before, after, hname, hfirst, ⟨hitems⟩⟩ := h
  have hinstance : ∀ path a a', InstanceMisspelled a a' → readInstance ctx path a' = readInstance ctx path a :=
    fun _ _ _ => readInstance_extended
  obtain rfl := List.mem_singleton.1 hname
  simp only [readHoldings, List.map_append, List.map_cons, member?_append_self hfirst, Option.getD_some, instanceItems]
  split
  · exact readItems_altered hinstance hitems _ 0
  · rfl

end Fixture

open Fixture Json

namespace Scenario

/-- Once a member of an unknown name is added to a record of a scenario that is read, it is not read any more, and
a place is told. Only what is added to an instance changes nothing. -/
theorem misspelled_rejected {ctx : Fixture.Context} {path : String} {j : Json} {steps : List Step}
    (h : (ofJson ctx path j).steps = .ok steps) :
    (∀ j', ScenarioRecord.Misspelled j j' →
      ∃ place flaw, (ofJson ctx path j').steps = .error (.misread place flaw)) ∧
    ∀ place i i', AtMember ["instances"] (AtItem InstanceMisspelled) i i' →
      readHoldings ctx place i' = readHoldings ctx place i := by
  refine ⟨fun j' hmisspelled => ?_, fun _ _ _ => readHoldings_instances⟩
  rw [ofJson] at h ⊢
  cases hr : readRecord path ScenarioRecord.model (ScenarioRecord.ofJson j) with
  | error e =>
    rw [hr] at h
    cases h
  | ok r =>
    rw [hr] at h
    obtain ⟨place, flaw, hr'⟩ | ⟨r', hr', hspoiled⟩ := readRecord_rejected_or ScenarioRecord.carries hmisspelled hr
    · rw [hr']
      exact ⟨place, flaw, rfl⟩
    · rw [hr']
      exact readFrom_rejects hspoiled h

/-- An expectation of one log and more. -/
def expectationJson (log : List (Text × Json)) : Json :=
  .object [("status", .int 0), ("logs", .list [.object log, .text "+"])]

/-- A scenario of one call, of whose logs one is expected. -/
def callJson (log : List (Text × Json)) : Json := .object [("steps", .list [.object [
  ("step", .text "scCall"),
  ("tx", .object [("from", .text "address:a"), ("to", .text "sc:till"), ("function", .text "pay")]),
  ("expect", expectationJson log)]])]

theorem misspelled_callJson {log log' : List (Text × Json)} (h : LogRecord.Misspelled (.object log) (.object log')) :
    ScenarioRecord.Misspelled (callJson log) (callJson log') := by
  have hexpect : ExpectationRecord.Misspelled (expectationJson log) (expectationJson log') :=
    .inr (.intro [("status", .int 0)] [] (List.mem_singleton_self "logs") (by simp) ⟨.intro [] _ h⟩)
  have hstep := AtMember.intro [("step", .text "scCall"), ("tx", .object [("from", .text "address:a"),
    ("to", .text "sc:till"), ("function", .text "pay")])] [] (List.mem_singleton_self "expect") (by simp) hexpect
  have hsteps := Altered.intro [] [] (StepRecord.Misspelled.transaction .call rfl (.inr (.inr hstep)))
  exact .inr (.intro [] [] (List.mem_singleton_self "steps") nofun ⟨hsteps⟩)

/-- A call is read with the log that is expected of it, and not with a topic that should be topics. -/
theorem misspelled_rejected_topic :
    (∃ steps, (ofJson {} "pay.json" (callJson [("address", .text "sc:till"), ("data", .text "*")])).steps = .ok steps) ∧
    ∃ place flaw, (ofJson {} "pay.json" (callJson [("address", .text "sc:till"), ("topic", .list []),
      ("data", .text "*")])).steps = .error (.misread place flaw) := by
  have hread : ∃ steps, (ofJson {} "pay.json" (callJson [("address", .text "sc:till"), ("data", .text "*")])).steps =
      .ok steps := ⟨_, rfl⟩
  obtain ⟨steps, h⟩ := hread
  refine ⟨⟨steps, h⟩, (misspelled_rejected h).1 _ (misspelled_callJson ?_)⟩
  exact .intro [("address", .text "sc:till")] [("data", .text "*")] "topic" (.list []) (by decide)

/-! ### An instance with a misspelled balance -/

/-- A scenario that sets an account with an instance of a token. -/
def instanceJson (members : List (Text × Json)) : Json := .object [("steps", .list [.object [
  ("step", .text "setState"),
  ("accounts", .object [("address:a", .object [("dct", .object [
    ("str:T", .object [("instances", .list [.object members])])])])])]])]

/-- The member is of no name that an instance has, and the scenario is read all the same. -/
theorem instance_not_rejected :
    InstanceMisspelled (.object [("nonce", .int 1), ("balance", .int 2)])
      (.object [("nonce", .int 1), ("balance", .int 2), ("balence", .int 3)]) ∧
    (∃ steps, (ofJson {} "case.json" (instanceJson [("nonce", .int 1), ("balance", .int 2)])).steps = .ok steps) ∧
    ∃ steps, (ofJson {} "case.json" (instanceJson
      [("nonce", .int 1), ("balance", .int 2), ("balence", .int 3)])).steps = .ok steps :=
  ⟨.intro [("nonce", .int 1), ("balance", .int 2)] [] "balence" (.int 3) (by decide), ⟨_, rfl⟩, ⟨_, rfl⟩⟩

end Scenario

end TrialLedger
