import TrialLedger.Fixture.Record
import TrialLedger.Proofs.Fixture.Shape

/-! Misspelled members of the records of a scenario. Most of them are found when the scenario is checked as a
whole. Those in holdings, in logs that are expected and in accounts that are checked stand in values that are
still left as they are written, and spoil what is made of the record. -/

namespace TrialLedger.Fixture

open Json Relator

/-! ### Records with a misspelled member

Each relation holds between a value and the same one with a member more in one of its records. The keys of an
account are those of the tokens that count. -/

def HoldingsMisspelled : Json → Json → Prop := Extended ["instances"]

def TransferRecord.Misspelled : Json → Json → Prop := Extended TransferRecord.shape.names

def LogRecord.Misspelled : Json → Json → Prop := Extended LogRecord.shape.names

def AccountRecord.Misspelled (keys : Text → Prop) (j j' : Json) : Prop :=
  Extended AccountRecord.shape.names j j' ∨ AtMember ["dct"] (AtEntry keys HoldingsMisspelled) j j'

def ExpectationRecord.Misspelled (j j' : Json) : Prop :=
  Extended ExpectationRecord.shape.names j j' ∨ AtMember ["logs"] (AtItem LogRecord.Misspelled) j j'

def CallRecord.Misspelled (j j' : Json) : Prop :=
  Extended CallRecord.shape.names j j' ∨ AtMember ["dctValue", "dct_value"] (AtItem TransferRecord.Misspelled) j j'

def AccountsRecord.Misspelled (j j' : Json) : Prop :=
  Extended AccountsRecord.shape.names j j' ∨
    AtMember ["accounts"] (AtEntry (fun _ => True) (AccountRecord.Misspelled fun _ => True)) j j'

def TransactionRecord.Misspelled (j j' : Json) : Prop :=
  Extended TransactionRecord.shape.names j j' ∨
    AtMember ["tx"] CallRecord.Misspelled j j' ∨ AtMember ["expect"] ExpectationRecord.Misspelled j j'

/-- The member `+` of a map that is checked is a sign, and no entry. -/
def CheckRecord.Misspelled (j j' : Json) : Prop :=
  Extended CheckRecord.shape.names j j' ∨
    AtMember ["accounts"] (AtEntry (· ≠ .plain "+") (AccountRecord.Misspelled (· ≠ .plain "+"))) j j'

/-- What stands for the kind of a step. -/
def stepTag? : Json → Option Json
  | .object members => member? members "step"
  | _ => none

inductive StepRecord.Misspelled (j j' : Json) : Prop
  | setState (htag : stepTag? j = some (.text "setState")) (h : AccountsRecord.Misspelled j j')
  | transaction (kind : TransactionKind) (htag : stepTag? j = some (.text kind.name))
      (h : TransactionRecord.Misspelled j j')
  | checkState (htag : stepTag? j = some (.text "checkState")) (h : CheckRecord.Misspelled j j')

def ScenarioRecord.Misspelled (j j' : Json) : Prop :=
  Extended ScenarioRecord.shape.names j j' ∨ AtMember ["steps"] (AtItem StepRecord.Misspelled) j j'

/-! ### What is not found with the scenario as a whole -/

/-- Accounts that differ in the members of some holdings. -/
def AccountRecord.Spoiled (keys : Text → Prop) (r r' : AccountRecord) : Prop :=
  AtEntry keys HoldingsMisspelled r.dct r'.dct ∧ r' = { r with dct := r'.dct }

/-- Expectations that differ in the members of some log. -/
def ExpectationRecord.Spoiled (r r' : ExpectationRecord) : Prop :=
  AtItem LogRecord.Misspelled r.logs r'.logs ∧ r' = { r with logs := r'.logs }

def TransactionRecord.Spoiled (r r' : TransactionRecord) : Prop :=
  ∃ e e', r.expectation = some e ∧ r' = { r with expectation := some e' } ∧ ExpectationRecord.Spoiled e e'

inductive StepRecord.Spoiled : StepRecord → StepRecord → Prop
  | setState {r r' : AccountsRecord}
      (h : Altered (SameKey (fun _ => True) (AccountRecord.Spoiled fun _ => True)) r.accounts r'.accounts) :
    Spoiled (.setState r) (.setState r')
  | transaction (kind : TransactionKind) {r r' : TransactionRecord} (h : TransactionRecord.Spoiled r r') :
    Spoiled (.transaction kind r) (.transaction kind r')
  | checkState {r r' : CheckRecord}
      (h : Altered (SameKey (· ≠ .plain "+") (AccountRecord.Misspelled (· ≠ .plain "+"))) r.accounts r'.accounts) :
    Spoiled (.checkState r) (.checkState r')

theorem refuses_extended {α : Type} {model : String} {s : Shape α} {S : α → α → Prop} :
    Carries (s.record model) (Extended s.names) S := fun _ _ _ _ h ha ha' =>
  (s.refuses_extended model h ha ha').elim

theorem AccountRecord.carries (keys : Text → Prop) :
    Carries AccountRecord.ofJson (AccountRecord.Misspelled keys) (AccountRecord.Spoiled keys) := by
  refine .or refuses_extended (Shape.carries_atMember (by decide) fun {j j' ms ms'} h hR => ?_)
  refine .seq (.seq (.seq (.seq (.seq (.seq (.map ?_ (.other h (by decide))) (.literal h (by decide)))
    (.literal h (by decide))) (.here h hR .any)) (.literal h (by decide))) (.literal h (by decide)))
    (.literal h (by decide))
  rintro _ _ rfl _ _ rfl _ _ rfl _ _ hdct _ _ rfl _ _ rfl _ _ rfl
  exact ⟨hdct, rfl⟩

theorem ExpectationRecord.carries :
    Carries ExpectationRecord.ofJson ExpectationRecord.Misspelled ExpectationRecord.Spoiled := by
  refine .or refuses_extended (Shape.carries_atMember (by decide) fun {j j' ms ms'} h hR => ?_)
  refine .seq (.seq (.seq (.seq (.seq (.map ?_ (.literal h (by decide))) (.literal h (by decide)))
    (.literal h (by decide))) (.here h hR .any)) (.literal h (by decide))) (.literal h (by decide))
  rintro _ _ rfl _ _ rfl _ _ rfl _ _ hlogs _ _ rfl _ _ rfl
  exact ⟨hlogs, rfl⟩

theorem CallRecord.refuses : Refuses CallRecord.ofJson CallRecord.Misspelled := by
  refine .or refuses_extended (Shape.carries_atMember (by decide) fun {j j' ms ms'} h hR => ?_)
  have htransfers : Refuses (listValue TransferRecord.ofJson) (AtItem TransferRecord.Misspelled) := by
    intro _ _ _ _ h ha ha'
    obtain ⟨before, after, hnever⟩ := Carries.items (S := fun _ _ => False) refuses_extended h ha ha'
    exact hnever
  exact .never_seq (.never_seq (.never_seq (.never_seq (.seq_never (.here h hR htransfers)))))

theorem AccountsRecord.carries : Carries (AccountsRecord.shape.record "") AccountsRecord.Misspelled fun r r' =>
    Altered (SameKey (fun _ => True) (AccountRecord.Spoiled fun _ => True)) r.accounts r'.accounts := by
  refine .or refuses_extended (Shape.carries_atMember (by decide) fun {j j' ms ms'} h hR => ?_)
  refine .seqRight (.other h (by decide)) (.seq (.map ?_ (.other h (by decide)))
    (.here h hR (Carries.entries (AccountRecord.carries _))))
  rintro _ _ rfl _ _ haccounts
  exact haccounts

theorem CheckRecord.carries : Carries (CheckRecord.shape.record "") CheckRecord.Misspelled fun r r' =>
    Altered (SameKey (· ≠ .plain "+") (AccountRecord.Misspelled (· ≠ .plain "+"))) r.accounts r'.accounts := by
  refine .or refuses_extended (Shape.carries_atMember (by decide) fun {j j' ms ms'} h hR => ?_)
  refine .seqRight (.other h (by decide)) (.seq (.seq (.map ?_ (.other h (by decide))) (.other h (by decide)))
    (.here h hR (Carries.entries .any)))
  rintro _ _ rfl _ _ rfl _ _ haccounts
  exact haccounts

theorem TransactionRecord.carries :
    Carries (TransactionRecord.shape.record "") TransactionRecord.Misspelled TransactionRecord.Spoiled := by
  refine .or refuses_extended (.or ?_ ?_)
  · refine Shape.carries_atMember (by decide) fun {j j' ms ms'} h hR => ?_
    exact .seqRight (.other h (by decide)) (.never_seq (.seq_never (.here h hR CallRecord.refuses)))
  · refine Shape.carries_atMember (by decide) fun {j j' ms ms'} h hR => ?_
    have hnull : ∀ j j', ExpectationRecord.Misspelled j j' → j.isNull = false ∧ j'.isNull = false := by
      intro j j' hj
      cases hj with
      | inl hj =>
        cases hj
        exact ⟨rfl, rfl⟩
      | inr hj =>
        cases hj
        exact ⟨rfl, rfl⟩
    have hexpectation := Carries.nullable ExpectationRecord.carries hnull
    refine .seqRight (.other h (by decide)) (.seq (.seq (.seq (.seq (.map ?_ (.other h (by decide)))
      (.other h (by decide))) (.other h (by decide))) (.other h (by decide))) (.here h hR hexpectation))
    rintro _ _ rfl _ _ rfl _ _ rfl _ _ rfl _ _ ⟨e, e', rfl, rfl, hspoiled⟩
    exact ⟨e, e', rfl, rfl, hspoiled⟩

/-! ### Steps -/

theorem stepTag?_extended {known : List String} (hstep : "step" ∈ known) {j j' : Json} (h : Extended known j j') :
    stepTag? j' = stepTag? j := by
  obtain ⟨before, after, name, i, hname⟩ := h
  exact member?_insert_other i fun heq => hname (heq ▸ List.mem_map_of_mem hstep)

theorem stepTag?_atMember {names : List String} (hstep : "step" ∉ names) {R : Json → Json → Prop} {j j' : Json}
    (h : AtMember names R j j') : stepTag? j' = stepTag? j := by
  obtain ⟨before, after, hname, hfirst, hR⟩ := h
  exact member?_append_other _ _ fun heq => hstep (Text.plain.inj heq ▸ hname)

/-- A step is read as the record of its kind. -/
theorem ofJson_step {α : Type} {tag : String} {make : α → StepRecord} {s : Shape α}
    (hkind : stepKinds.lookup tag = some fun ms => make <$> s.ofMembers ms) {j : Json}
    (htag : stepTag? j = some (.text tag)) {r : StepRecord} (h : StepRecord.ofJson j = .ok r) :
    ∃ a, s.record "" j = .ok a ∧ r = make a := by
  cases j with
  | object ms =>
    replace htag : member? ms "step" = some (.text tag) := htag
    simp only [StepRecord.ofJson, htag, hkind, Checked.under_eq_ok, Checked.map_eq_ok] at h
    obtain ⟨a, ha, rfl⟩ := h
    exact ⟨a, ha, rfl⟩
  | _ => cases htag

/-- Steps of one kind are related as their records are. -/
theorem carries_step {α : Type} {tag : String} {make : α → StepRecord} {s : Shape α} {R : Json → Json → Prop}
    {S : α → α → Prop} {T : StepRecord → StepRecord → Prop}
    (hkind : stepKinds.lookup tag = some fun ms => make <$> s.ofMembers ms) (h : Carries (s.record "") R S)
    (hmake : ∀ a a', S a a' → T (make a) (make a')) (htag : ∀ j j', R j j' → stepTag? j' = stepTag? j) :
    Carries StepRecord.ofJson (fun j j' => stepTag? j = some (.text tag) ∧ R j j') T := by
  rintro j j' r r' ⟨hj, hR⟩ hr hr'
  obtain ⟨a, ha, rfl⟩ := ofJson_step hkind hj hr
  obtain ⟨a', ha', rfl⟩ := ofJson_step hkind ((htag j j' hR).trans hj) hr'
  exact hmake a a' (h hR ha ha')

theorem StepRecord.carries : Carries StepRecord.ofJson StepRecord.Misspelled StepRecord.Spoiled := by
  intro j j' r r' h
  cases h with
  | setState htag h =>
    refine carries_step rfl AccountsRecord.carries (fun _ _ => .setState) (fun _ _ h => ?_) ⟨htag, h⟩
    exact h.elim (stepTag?_extended (by decide)) (stepTag?_atMember (by decide))
  | transaction kind htag h =>
    have hkind : stepKinds.lookup kind.name =
        some fun ms => .transaction kind <$> TransactionRecord.shape.ofMembers ms := by cases kind <;> rfl
    refine carries_step hkind TransactionRecord.carries (fun _ _ => .transaction kind) (fun _ _ h => ?_) ⟨htag, h⟩
    rcases h with h | h | h
    · exact stepTag?_extended (by decide) h
    · exact stepTag?_atMember (by decide) h
    · exact stepTag?_atMember (by decide) h
  | checkState htag h =>
    refine carries_step rfl CheckRecord.carries (fun _ _ => .checkState) (fun _ _ h => ?_) ⟨htag, h⟩
    exact h.elim (stepTag?_extended (by decide)) (stepTag?_atMember (by decide))

theorem ScenarioRecord.carries : Carries ScenarioRecord.ofJson ScenarioRecord.Misspelled fun r r' =>
    Altered StepRecord.Spoiled r.steps r'.steps := by
  refine .or refuses_extended (Shape.carries_atMember (by decide) fun {j j' ms ms'} h hR => ?_)
  refine .seq (.seq (.seq (.map ?_ (.other h (by decide))) (.other h (by decide))) (.other h (by decide)))
    (.here h hR (Carries.items StepRecord.carries))
  rintro _ _ rfl _ _ rfl _ _ rfl _ _ hsteps
  exact hsteps

end TrialLedger.Fixture
