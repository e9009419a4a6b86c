import TrialLedger.Fixture.Record
import TrialLedger.Proofs.Fixture.Shape
import TrialLedger.Proofs.Json.Parts

/-! What stands in the records of a value. Every literal of a scenario is a part of its JSON, or null where it is
left out; so are the keys of its maps and the names of its transactions. -/

namespace TrialLedger

namespace Fixture

open Json (Part)

variable {src : Json}

/-! ### Values -/

section

variable {α : Type} {read : Json → Checked α} {Q : α → Prop}

/-- What is read of the parts of a value has the property. -/
def Keeps (src : Json) (read : Json → Checked α) (Q : α → Prop) : Prop :=
  ∀ ⦃j a⦄, src.Part j → read j = .ok a → Q a

theorem Keeps.any : Keeps src anyValue src.Part := by
  rintro j _ hj ⟨⟩
  exact hj

theorem Keeps.text : Keeps src textValue fun t => src.Part (.text t) := by
  intro j t hj ht
  cases j with
  | text u =>
    obtain rfl : u = t := Except.ok.inj ht
    exact hj
  | _ => cases ht

theorem Keeps.nullable (h : Keeps src read Q) : Keeps src (nullable read) fun o => ∀ a ∈ o, Q a := by
  intro j o hj ho
  cases j with
  | null =>
    obtain rfl := Except.ok.inj ho
    exact nofun
  | _ =>
    obtain ⟨a, ha, rfl⟩ := Checked.map_eq_ok.1 ho
    rintro _ ⟨⟩
    exact h hj ha

theorem Keeps.items (h : Keeps src read Q) : Keeps src (listValue read) fun l => ∀ a ∈ l, Q a := by
  have hitems : ∀ items i l, (∀ j ∈ items, src.Part j) → itemsFrom read i items = .ok l → ∀ a ∈ l, Q a := by
    intro items
    induction items with
    | nil =>
      rintro i _ - ⟨⟩
      exact nofun
    | cons j r ih =>
      intro i l hparts hl
      obtain ⟨a, rest, ha, hrest, rfl⟩ := itemsFrom_cons.1 hl
      obtain ⟨hj, hr⟩ := List.forall_mem_cons.1 hparts
      exact List.forall_mem_cons.2 ⟨h hj ha, ih _ _ hr hrest⟩
  intro j l hj hl
  cases j with
  | list items => exact hitems items 0 l (fun i hi => hj.trans (.item hi (.here i))) hl
  | _ => cases hl

theorem Keeps.entries (h : Keeps src read Q) :
    Keeps src (mapValue read) fun l => ∀ e ∈ l, src.Part (.text e.1) ∧ Q e.2 := by
  have hentries : ∀ members l, (∀ m ∈ members, src.Part (.text m.1) ∧ src.Part m.2) →
      entriesOf read members = .ok l → ∀ e ∈ l, src.Part (.text e.1) ∧ Q e.2 := by
    intro members
    induction members with
    | nil =>
      rintro _ - ⟨⟩
      exact nofun
    | cons m r ih =>
      intro l hparts hl
      obtain ⟨a, rest, ha, hrest, rfl⟩ := entriesOf_cons.1 hl
      obtain ⟨⟨hname, hvalue⟩, hr⟩ := List.forall_mem_cons.1 hparts
      exact List.forall_mem_cons.2 ⟨⟨hname, h hvalue ha⟩, ih _ hr hrest⟩
  intro j l hj hl
  cases j with
  | object members =>
    exact hentries members l (fun m hm => ⟨hj.trans (.name hm), hj.trans (.value hm (.here m.2))⟩) hl
  | _ => cases hl

end

/-! ### Shapes -/

namespace Shape

variable {α β : Type}

/-- What is read of an object that is a part of a value has the property. -/
def Keeps (src : Json) (s : Shape α) (Q : α → Prop) : Prop :=
  ∀ ⦃ms a⦄, src.Part (.object ms) → s.read ms = .ok a → Q a

section

variable {f : Shape (α → β)} {x : Shape α} {Q : α → Prop} {Q' : β → Prop}

theorem Keeps.seq (hf : f.Keeps src fun g => ∀ a, Q a → Q' (g a)) (hx : x.Keeps src Q) : (f <*> x).Keeps src Q' := by
  intro ms b hms hb
  obtain ⟨g, a, hg, ha, rfl⟩ := Checked.seq_eq_ok.1 hb
  exact hf hms hg a (hx hms ha)

theorem Keeps.map {g : α → β} (hg : ∀ a, Q a → Q' (g a)) (hx : x.Keeps src Q) : (g <$> x).Keeps src Q' := by
  have hpure : (pure g : Shape (α → β)).Keeps src fun g => ∀ a, Q a → Q' (g a) := by
    rintro ms _ - ⟨⟩
    exact hg
  change (pure g <*> x : Shape β).Keeps src Q'
  exact hpure.seq hx

theorem Keeps.any : x.Keeps src fun _ => True := fun _ _ _ _ => trivial

theorem Keeps.seqRight {y : Shape β} (hy : y.Keeps src Q') : (x *> y).Keeps src Q' := by
  have hconst : (Function.const α id <$> x : Shape (β → β)).Keeps src fun g => ∀ b, Q' b → Q' (g b) :=
    .map (fun _ _ _ hb => hb) .any
  change (Function.const α id <$> x <*> y : Shape β).Keeps src Q'
  exact hconst.seq hy

end

section

variable {spellings : List String} {read : Json → Checked α} {Q : α → Prop}

theorem Keeps.field {absent : Checked α} (habsent : ∀ a, absent = .ok a → Q a) (h : Fixture.Keeps src read Q) :
    (field spellings absent read).Keeps src Q := by
  intro ms a hms ha
  cases hm : spelled? ms spellings with
  | none =>
    simp only [Shape.field, hm] at ha
    exact habsent a ha
  | some m =>
    simp only [Shape.field, hm, Checked.under_eq_ok] at ha
    exact h (hms.member (mem_of_spelled? hm).2) ha

theorem Keeps.optional {default : α} (hdefault : Q default) (h : Fixture.Keeps src read Q) :
    (Shape.optional spellings default read).Keeps src Q := by
  refine .field ?_ h
  rintro _ ⟨⟩
  exact hdefault

theorem Keeps.required (h : Fixture.Keeps src read Q) : (Shape.required spellings read).Keeps src Q :=
  .field nofun h

theorem Keeps.literal : (Shape.literal spellings).Keeps src src.Part := .optional (.absent src) .any

theorem Keeps.ofMembers {s : Shape α} (h : s.Keeps src Q) {ms : List (Text × Json)} {a : α}
    (hms : src.Part (.object ms)) (ha : s.ofMembers ms = .ok a) : Q a := h hms (ofMembers_eq_ok.1 ha).1

end

end Shape

theorem Keeps.record {α : Type} {s : Shape α} {Q : α → Prop} (h : s.Keeps src Q) (model : String) :
    Keeps src (s.record model) Q := by
  intro j a hj ha
  cases j with
  | object ms => exact h.ofMembers hj ha
  | _ => cases ha

/-! ### Records -/

/-- All literals of the record are parts of the value. -/
structure TransferRecord.In (src : Json) (r : TransferRecord) : Prop where
  token : src.Part r.token
  nonce : src.Part r.nonce
  amount : src.Part r.amount
  value : src.Part r.value

theorem TransferRecord.keeps_ofJson : Keeps src ofJson (In src) := by
  refine .record (.seq (.seq (.seq (.map ?_ (.required .any)) .literal) .literal) .literal) model
  exact fun _ ht _ hn _ ha _ hv => ⟨ht, hn, ha, hv⟩

structure CallRecord.In (src : Json) (r : CallRecord) : Prop where
  sender : src.Part r.sender
  receiver : src.Part r.receiver
  value : src.Part r.value
  moaxValue : src.Part r.moaxValue
  nativeAmount : src.Part r.nativeAmount
  transfers : ∀ t ∈ r.transfers, t.In src
  arguments : ∀ j ∈ r.arguments, src.Part j
  gasLimit : src.Part r.gasLimit
  gasPrice : src.Part r.gasPrice

theorem CallRecord.keeps_ofJson : Keeps src ofJson (In src) := by
  refine .record (.seq (.seq (.seq (.seq (.seq (.seq (.seq (.seq (.seq (.map ?_ (.required .any)) (.required .any))
    .literal) .literal) .literal) (.optional ?_ (.items TransferRecord.keeps_ofJson))) .any)
    (.optional ?_ (.items .any))) .literal) .literal) model
  · exact fun _ hs _ hr _ hv _ hm _ hn _ ht _ _ _ ha _ hl _ hp => ⟨hs, hr, hv, hm, hn, ht, ha, hl, hp⟩
  · exact nofun
  · exact nofun

structure LogRecord.In (src : Json) (r : LogRecord) : Prop where
  address : src.Part r.address
  endpoint : src.Part r.endpoint
  topics : src.Part r.topics
  data : src.Part r.data

theorem LogRecord.keeps_ofJson : Keeps src ofJson (In src) := by
  refine .record (.seq (.seq (.seq (.map ?_ .literal) .literal) .literal) .literal) model
  exact fun _ ha _ he _ ht _ hd => ⟨ha, he, ht, hd⟩

structure ExpectationRecord.In (src : Json) (r : ExpectationRecord) : Prop where
  out : src.Part r.out
  status : src.Part r.status
  message : src.Part r.message
  logs : src.Part r.logs
  gas : src.Part r.gas

theorem ExpectationRecord.keeps_ofJson : Keeps src ofJson (In src) := by
  refine .record (.seq (.seq (.seq (.seq (.seq (.map ?_ .literal) .literal) .literal) .literal) .literal) .any) model
  exact fun _ ho _ hs _ hm _ hl _ hg _ _ => ⟨ho, hs, hm, hl, hg⟩

structure AccountRecord.In (src : Json) (r : AccountRecord) : Prop where
  nonce : src.Part r.nonce
  balance : src.Part r.balance
  dct : src.Part r.dct
  storage : src.Part r.storage
  code : src.Part r.code
  owner : src.Part r.owner

theorem AccountRecord.keeps_ofJson : Keeps src ofJson (In src) := by
  refine .record (.seq (.seq (.seq (.seq (.seq (.seq (.map ?_ .any) .literal) .literal) .literal) .literal) .literal)
    .literal) model
  exact fun _ _ _ hn _ hb _ hd _ hs _ hc _ ho => ⟨hn, hb, hd, hs, hc, ho⟩

/-! ### Steps -/

def AccountsRecord.In (src : Json) (r : AccountsRecord) : Prop :=
  ∀ a ∈ r.accounts, src.Part (.text a.1) ∧ a.2.In src

structure TransactionRecord.In (src : Json) (r : TransactionRecord) : Prop where
  /-- The name is empty where it is left out. -/
  id : r.id = .plain "" ∨ src.Part (.text r.id)
  call : r.call.In src
  expectation : ∀ e ∈ r.expectation, e.In src

def CheckRecord.In (src : Json) (r : CheckRecord) : Prop :=
  ∀ a ∈ r.accounts, src.Part (.text a.1) ∧ src.Part a.2

def StepRecord.In (src : Json) : StepRecord → Prop
  | .setState r => r.In src
  | .transaction _ r => r.In src
  | .checkState r => r.In src

theorem AccountsRecord.keeps_shape : shape.Keeps src (In src) := by
  refine .seqRight (.seq (.map ?_ .any) (.optional ?_ (.entries AccountRecord.keeps_ofJson)))
  · exact fun _ _ _ h => h
  · exact nofun

theorem TransactionRecord.keeps_shape : shape.Keeps src (In src) := by
  have hid : Keeps src textValue fun t => t = .plain "" ∨ src.Part (.text t) := fun _ _ hj ht => .inr (Keeps.text hj ht)
  refine .seqRight (.seq (.seq (.seq (.seq (.map ?_ (.optional ?_ hid)) .any) .any) (.required CallRecord.keeps_ofJson))
    (.optional ?_ (.nullable ExpectationRecord.keeps_ofJson)))
  · exact fun _ hid _ _ _ _ _ hcall _ hexpect => ⟨hid, hcall, hexpect⟩
  · exact .inl rfl
  · exact nofun

theorem CheckRecord.keeps_shape : shape.Keeps src (In src) := by
  refine .seqRight (.seq (.seq (.map ?_ .any) .any) (.optional ?_ (.entries .any)))
  · exact fun _ _ _ _ _ h => h
  · exact nofun

theorem StepRecord.keeps_ofJson : Keeps src ofJson (In src) := by
  have hkinds : ∀ k ∈ stepKinds, ∀ ms r, src.Part (.object ms) → k.2 ms = .ok r → r.In src := by
    have htransaction : ∀ kind ms r, src.Part (.object ms) →
        StepRecord.transaction kind <$> TransactionRecord.shape.ofMembers ms = .ok r → r.In src := by
      intro kind ms r hms hr
      obtain ⟨t, ht, rfl⟩ := Checked.map_eq_ok.1 hr
      exact TransactionRecord.keeps_shape.ofMembers hms ht
    simp only [stepKinds, List.forall_mem_cons, List.not_mem_nil, false_imp_iff, implies_true, and_true]
    refine ⟨fun ms r hms hr => ?_, htransaction .call, htransaction .query, htransaction .transfer, fun ms r hms hr => ?_⟩
    · obtain ⟨a, ha, rfl⟩ := Checked.map_eq_ok.1 hr
      exact AccountsRecord.keeps_shape.ofMembers hms ha
    · obtain ⟨c, hc, rfl⟩ := Checked.map_eq_ok.1 hr
      exact CheckRecord.keeps_shape.ofMembers hms hc
  intro j r hj hr
  unfold ofJson at hr
  split at hr
  · split at hr
    · cases hr
    · rename_i tag _
      cases hk : stepKinds.lookup tag with
      | none =>
        rw [hk] at hr
        cases hr
      | some read =>
        simp only [hk, Checked.under_eq_ok] at hr
        obtain ⟨l, l', hkinds', -⟩ := List.lookup_eq_some_iff.1 hk
        exact hkinds (tag, read) (by simp [hkinds']) _ _ hj hr
    · cases hr
  · cases hr

theorem ScenarioRecord.keeps_ofJson : Keeps src ofJson fun r => ∀ s ∈ r.steps, s.In src := by
  refine .record (.seq (.seq (.seq (.map ?_ .any) .any) .any) (.optional ?_ (.items StepRecord.keeps_ofJson))) model
  · exact fun _ _ _ _ _ _ _ h => h
  · exact nofun

end Fixture

end TrialLedger
