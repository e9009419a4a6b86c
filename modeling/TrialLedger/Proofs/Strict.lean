import Mathlib
import TrialLedger.Proofs.Engine.Nested
import TrialLedger.Proofs.Fixture.Strict
import TrialLedger.Proofs.Interpretation
import TrialLedger.Proofs.Text.Integer

/-! What strictness adds. An amount is the first of its spellings that is present, under any context. A
lenient context reads the other ones and lets them say what they like; a strict one fails at the first that
says another number. Nothing else is read in two ways, so a scenario that is read strictly has the steps
that it has leniently, and one that is only read leniently has two spellings that clash. -/

namespace TrialLedger

namespace Fixture

variable {α β : Type} {ctx : Context} {path : Text} {spellings : List (String × Json)}

/-! ### Spellings -/

/-- The amount under the first spelling that is present, whatever the other ones say. -/
def readFirst (ctx : Context) (path : Text) (spellings : List (String × Json)) : Read (Option Nat) :=
  match (present spellings).head? with
  | none => .ok none
  | some (name, j) => some <$> readAmount ctx (member path name) j

/-- A spelling behind the one that counts says another number, and the error names that spelling, unless one of
them is too long to be written. -/
def Clash (ctx : Context) (path : Text) (spellings : List (String × Json)) (e : ReadError) : Prop :=
  ∃ used j ignored name j' n n', present spellings = (used, j) :: ignored ∧ (name, j') ∈ ignored ∧
    readAmount ctx (member path used) j = .ok n ∧ readAmount ctx (member path name) j' = .ok n' ∧ n' ≠ n ∧
    e = if j'.isWritable && j.isWritable then .misread (member path name) (.conflict used j' j) else .unwritable

/-- The amount is the one of the first spelling, and nothing clashes with it if the context is strict. -/
structure Takes (ctx : Context) (path : Text) (spellings : List (String × Json)) (n : Option Nat) : Prop where
  first : readFirst ctx path spellings = .ok n
  agreed : ctx.strict = true → ∀ e, ¬ Clash ctx path spellings e

theorem readIgnored_eq_ok {used : String} {raw : Json} {n : Nat} {ignored : List (String × Json)} {u : Unit}
    (h : readIgnored ctx path used raw n ignored = .ok u) (hstrict : ctx.strict = true) :
    ∀ s ∈ ignored, readAmount ctx (member path s.1) s.2 = .ok n := by
  induction ignored with
  | nil => simp
  | cons s r ih =>
    obtain ⟨m, hm, h⟩ := bind_eq_ok.1 h
    by_cases hne : m = n
    · rw [if_neg fun hc => hc.1 hne] at h
      rw [hne] at hm
      exact List.forall_mem_cons.2 ⟨hm, ih h⟩
    · rw [if_pos ⟨hne, hstrict⟩] at h
      cases h

theorem takes_of_readSpelled {n : Option Nat} (h : readSpelled ctx path spellings = .ok n) :
    Takes ctx path spellings n := by
  unfold readSpelled at h
  split at h
  · rename_i hp
    refine ⟨by rw [readFirst, hp, ← h]; rfl, fun _ e => ?_⟩
    rintro ⟨used, j, ignored, name, j', m, m', hp', -⟩
    rw [hp] at hp'
    cases hp'
  · rename_i used j ignored hp
    obtain ⟨m, hm, h⟩ := bind_eq_ok.1 h
    obtain ⟨u, hu, h⟩ := bind_eq_ok.1 h
    obtain rfl := Except.ok.inj h
    refine ⟨by rw [readFirst, hp]; simp only [List.head?_cons, hm]; rfl, fun hstrict e => ?_⟩
    rintro ⟨used', j', ignored', name, j'', k, k', hp', hmem, hk, hk', hne, -⟩
    obtain ⟨⟨rfl, rfl⟩, rfl⟩ : (used = used' ∧ j = j') ∧ ignored = ignored' := by
      simpa using hp.symm.trans hp'
    have hagree := readIgnored_eq_ok hu hstrict _ hmem
    rw [hk] at hm
    rw [hk'] at hagree
    exact hne ((Except.ok.inj hagree).trans (Except.ok.inj hm).symm)

/-! ### Strict readings beside lenient ones -/

/-- The strict reading comes out as the lenient one does, or it fails with an error of the given kind. -/
def Refines (C : ReadError → Prop) (strict lenient : Read α) : Prop :=
  strict = lenient ∨ ∃ e, strict = .error e ∧ C e

namespace Refines

variable {C D : ReadError → Prop} {x y : Read α} {f g : α → Read β}

theorem refl (x : Read α) : Refines C x x := .inl rfl

theorem weaken (h : Refines C x y) (hCD : ∀ e, C e → D e) : Refines D x y :=
  h.imp_right fun ⟨e, he, hC⟩ => ⟨e, he, hCD e hC⟩

theorem bind (hx : Refines C x y) (hf : ∀ a, Refines C (f a) (g a)) : Refines C (x >>= f) (y >>= g) := by
  obtain rfl | ⟨e, rfl, he⟩ := hx
  · cases x with
    | ok a => exact hf a
    | error e => exact refl _
  · exact .inr ⟨e, rfl, he⟩

theorem bind_left (hx : Refines C x y) (f : α → Read β) : Refines C (x >>= f) (y >>= f) :=
  hx.bind fun a => refl (f a)

theorem bind_right (x : Read α) (hf : ∀ a, Refines C (f a) (g a)) : Refines C (x >>= f) (x >>= g) :=
  (refl x).bind hf

theorem readItems {read read' : Text → α → Read β} {l : List α} {i : Nat}
    (h : ∀ a k, (a, k) ∈ l.zipIdx i → Refines C (read (item path k) a) (read' (item path k) a)) :
    Refines C (readItems read path i l) (readItems read' path i l) := by
  induction l generalizing i with
  | nil => exact refl _
  | cons a r ih =>
    have hrest := ih fun b k hb => h b k (List.mem_cons_of_mem _ hb)
    exact (h a i List.mem_cons_self).bind fun _ => hrest.bind_left _

/-- What is read strictly is read leniently, and to the same. -/
theorem ok_of_ok {a : α} (h : Refines C x y) (hx : x = .ok a) : y = .ok a := by
  obtain rfl | ⟨e, rfl, -⟩ := h
  · exact hx
  · cases hx

theorem error_of_ok {a : α} {e : ReadError} (h : Refines C x y) (hy : y = .ok a) (hx : x = .error e) : C e := by
  obtain rfl | ⟨e', rfl, he⟩ := h
  · rw [hx] at hy
    cases hy
  · rwa [Except.error.inj hx] at he

end Refines

/-! ### Calls -/

theorem readIgnored_refines {used : String} {raw : Json} {n : Nat} {all ignored : List (String × Json)}
    (hp : present spellings = (used, raw) :: all) (hn : readAmount ctx (member path used) raw = .ok n)
    (h : ignored ⊆ all) :
    Refines (Clash ctx path spellings) (readIgnored (ctx.withStrict true) path used raw n ignored)
      (readIgnored (ctx.withStrict false) path used raw n ignored) := by
  induction ignored with
  | nil => exact .refl _
  | cons s r ih =>
    obtain ⟨name, j⟩ := s
    obtain ⟨hmem, hr⟩ := List.cons_subset.1 h
    simp only [readIgnored, readAmount_withStrict]
    cases hm : readAmount ctx (member path name) j with
    | error e => exact .refl _
    | ok m =>
      by_cases hne : m = n
      · change Refines _ (if _ then _ else _) (if _ then _ else _)
        rw [if_neg fun hc => hc.1 hne, if_neg fun hc => hc.1 hne]
        exact ih hr
      · exact .inr ⟨_, if_pos ⟨hne, rfl⟩, used, raw, all, name, j, n, m, hp, hmem, hn, hm, hne, rfl⟩

theorem readSpelled_refines :
    Refines (Clash ctx path spellings) (readSpelled (ctx.withStrict true) path spellings)
      (readSpelled (ctx.withStrict false) path spellings) := by
  unfold readSpelled
  cases hp : present spellings with
  | nil => exact .refl _
  | cons s all =>
    obtain ⟨used, raw⟩ := s
    simp only [readAmount_withStrict]
    cases hn : readAmount ctx (member path used) raw with
    | error e => exact .refl _
    | ok n => exact (readIgnored_refines hp hn (List.Subset.refl _)).bind_left _

/-- Two spellings of the native amount, or of the amount of one transfer, clash. -/
def CallRecord.Clashes (r : CallRecord) (ctx : Context) (path : Text) (e : ReadError) : Prop :=
  Clash ctx path r.spellings e ∨
    ∃ t ∈ r.transfers.zipIdx, Clash ctx (item (member path "dctValue") t.2) t.1.spellings e

/-- The payments of a call are taken from its record, and a native amount that is not spelled is zero. -/
structure CallRecord.Pays (r : CallRecord) (ctx : Context) (path : Text) (c : Call) : Prop where
  native : ∃ n, Takes ctx path r.spellings n ∧ c.native = n.getD 0
  transfers : List.Forall₂ (fun t p => Takes ctx (item (member path "dctValue") p.2) p.1.spellings (some t.amount))
    c.transfers r.transfers.zipIdx

theorem readTransfer_refines (r : TransferRecord) :
    Refines (Clash ctx path r.spellings) (readTransfer (ctx.withStrict true) path r)
      (readTransfer (ctx.withStrict false) path r) := by
  simp only [readTransfer, readBytes_withStrict, readU64_withStrict]
  exact .bind_right _ fun _ => readSpelled_refines.bind_left _

theorem readCall_refines (txHash : Bytes) (r : CallRecord) :
    Refines (r.Clashes ctx path) (readCall (ctx.withStrict true) path txHash r)
      (readCall (ctx.withStrict false) path txHash r) := by
  have hnative : Refines (r.Clashes ctx path) (readSpelled (ctx.withStrict true) path r.spellings)
      (readSpelled (ctx.withStrict false) path r.spellings) := readSpelled_refines.weaken fun e => .inl
  have htransfers : Refines (r.Clashes ctx path)
      (readItems (readTransfer (ctx.withStrict true)) (member path "dctValue") 0 r.transfers)
      (readItems (readTransfer (ctx.withStrict false)) (member path "dctValue") 0 r.transfers) :=
    .readItems fun t i ht => (readTransfer_refines t).weaken fun e he => .inr ⟨(t, i), ht, he⟩
  simp only [readCall, readGasLimit, readBytes_withStrict, readU64_withStrict, readAddress_withStrict,
    Context.withStrict_defaultGasLimit]
  exact hnative.bind fun _ => htransfers.bind_left _

theorem takes_of_readTransfer {r : TransferRecord} {t : Transfer} (h : readTransfer ctx path r = .ok t) :
    Takes ctx path r.spellings (some t.amount) := by
  obtain ⟨_, -, h⟩ := bind_eq_ok.1 h
  obtain ⟨amount, hamount, h⟩ := bind_eq_ok.1 h
  cases amount with
  | none => cases h
  | some amount =>
    obtain ⟨nonce, -, h⟩ := bind_eq_ok.1 h
    obtain rfl := Except.ok.inj h
    exact takes_of_readSpelled hamount

theorem forall₂_of_readItems {read : Text → α → Read β} {i : Nat} {l : List α} {bs : List β}
    (h : readItems read path i l = .ok bs) :
    List.Forall₂ (fun b p => read (item path p.2) p.1 = .ok b) bs (l.zipIdx i) := by
  induction l generalizing i bs with
  | nil =>
    obtain rfl := Except.ok.inj h
    exact .nil
  | cons a r ih =>
    obtain ⟨b, hb, h⟩ := bind_eq_ok.1 h
    obtain ⟨rest, hrest, h⟩ := bind_eq_ok.1 h
    obtain rfl := Except.ok.inj h
    exact .cons hb (ih hrest)

theorem pays_of_readCall {txHash : Bytes} {r : CallRecord} {c : Call} (h : readCall ctx path txHash r = .ok c) :
    r.Pays ctx path c := by
  obtain ⟨native, hnative, h⟩ := bind_eq_ok.1 h
  obtain ⟨transfers, htransfers, h⟩ := bind_eq_ok.1 h
  obtain ⟨arguments, -, h⟩ := bind_eq_ok.1 h
  obtain ⟨gasLimit, -, h⟩ := bind_eq_ok.1 h
  obtain ⟨sender, -, h⟩ := bind_eq_ok.1 h
  obtain ⟨receiver, -, h⟩ := bind_eq_ok.1 h
  obtain ⟨gasPrice, -, h⟩ := bind_eq_ok.1 h
  have hvalid := Action.mapError_eq_ok.1 h
  obtain ⟨-, -, hn, ht, -⟩ := Call.Draft.validate_eq_ok hvalid
  refine ⟨⟨native, takes_of_readSpelled hnative, hn.trans (Int.toNat_natCast _)⟩, ?_⟩
  rw [ht]
  exact (forall₂_of_readItems htransfers).imp fun _ _ => takes_of_readTransfer

/-! ### Scenarios -/

/-- Spellings clash in the transaction of a step. -/
def StepRecord.Clashes (ctx : Context) (index : Nat) : StepRecord → ReadError → Prop
  | .transaction _ r, e => r.call.Clashes ctx (member (item "steps" index) "tx") e
  | _, _ => False

/-- The payments of a step that is a transaction are taken from its record. -/
def StepRecord.Pays (ctx : Context) (index : Nat) : StepRecord → Step → Prop
  | .transaction kind r, s => ∃ call expectation, s = .transaction kind r.id call expectation ∧
      r.call.Pays ctx (member (item "steps" index) "tx") call
  | _, _ => True

def ScenarioRecord.Clashes (r : ScenarioRecord) (ctx : Context) (e : ReadError) : Prop :=
  ∃ s ∈ r.steps.zipIdx, s.1.Clashes ctx s.2 e

/-- Of spellings that can be written the error of a clash tells the place. -/
theorem Clash.isMisreading {e : ReadError} (h : Clash ctx path spellings e)
    (hwritable : ∀ s ∈ spellings, s.2.isWritable = true) : e.isMisreading = true := by
  obtain ⟨used, j, ignored, name, j', n, n', hp, hmem, -, -, -, rfl⟩ := h
  have hpresent : ∀ s ∈ present spellings, s.2.isWritable = true := fun s hs => hwritable s (List.mem_filter.1 hs).1
  rw [hp] at hpresent
  obtain ⟨hj, hignored⟩ := List.forall_mem_cons.1 hpresent
  rw [hignored _ hmem, hj]
  rfl

theorem ScenarioRecord.Clashes.isMisreading {j : Json} {r : ScenarioRecord} {e : ReadError} (h : r.Clashes ctx e)
    (hr : ScenarioRecord.ofJson j = .ok r) (hj : j.isWritable = true) : e.isMisreading = true := by
  obtain ⟨⟨s, i⟩, hs, hclash⟩ := h
  have hin := ScenarioRecord.keeps_ofJson (.here j) hr s (List.fst_mem_of_mem_zipIdx hs)
  cases s with
  | transaction kind t =>
    obtain hnative | ⟨⟨p, k⟩, hp, htransfer⟩ := hclash
    · exact hnative.isMisreading fun s hs => (hin.call.spellings s hs).isWritable hj
    · have htransfers := hin.call.transfers p (List.fst_mem_of_mem_zipIdx hp)
      exact htransfer.isMisreading fun s hs => (htransfers.spellings s hs).isWritable hj
  | setState | checkState => exact hclash.elim

theorem readStep_refines (index : Nat) (r : StepRecord) :
    Refines (r.Clashes ctx index) (Step.read (ctx.withStrict true) index r)
      (Step.read (ctx.withStrict false) index r) := by
  cases r with
  | setState r =>
    simp only [Step.read, readAccounts_withStrict]
    exact .refl _
  | transaction kind r =>
    simp only [Step.read, Step.readTransaction, readExpectation_withStrict]
    split
    · exact .refl _
    · exact .bind_right _ fun _ => (readCall_refines _ _).bind_left _
  | checkState r =>
    simp only [Step.read, readAccountsPattern_withStrict]
    exact .refl _

theorem readFrom_refines {records : List StepRecord} {index : Nat} {C : ReadError → Prop}
    (h : ∀ r i, (r, i) ∈ records.zipIdx index → ∀ e, r.Clashes ctx i e → C e) :
    Refines C (Step.readFrom (ctx.withStrict true) index records)
      (Step.readFrom (ctx.withStrict false) index records) := by
  induction records generalizing index with
  | nil => exact .refl _
  | cons r rest ih =>
    have hstep := (readStep_refines index r).weaken (h r index List.mem_cons_self)
    have hrest := ih fun r i hr => h r i (List.mem_cons_of_mem _ hr)
    exact hstep.bind fun _ => hrest.bind_left _

theorem pays_of_readStep {index : Nat} {r : StepRecord} {s : Step} (h : Step.read ctx index r = .ok s) :
    r.Pays ctx index s := by
  cases r with
  | setState r => trivial
  | transaction kind r =>
    simp only [Step.read, Step.readTransaction] at h
    split at h
    · cases h
    · obtain ⟨hash, -, h⟩ := bind_eq_ok.1 h
      obtain ⟨call, hcall, h⟩ := bind_eq_ok.1 h
      cases hr : r.expectation with
      | none =>
        rw [hr] at h
        exact ⟨call, none, (Except.ok.inj h).symm, pays_of_readCall hcall⟩
      | some expected =>
        rw [hr] at h
        obtain ⟨expectation, -, h⟩ := bind_eq_ok.1 h
        exact ⟨call, expectation, (Except.ok.inj h).symm, pays_of_readCall hcall⟩
  | checkState r => trivial

end Fixture

namespace Scenario

open Fixture

theorem steps_ofJson (ctx : Context) (path : String) {j : Json} {r : ScenarioRecord}
    (h : ScenarioRecord.ofJson j = .ok r) : (ofJson ctx path j).steps = Step.readFrom ctx 0 r.steps := by
  simp only [ofJson, h]
  rfl

theorem steps_ofJson_error (ctx : Context) (path : String) {j : Json} {issues : List Issue}
    (h : ScenarioRecord.ofJson j = .error issues) :
    (ofJson ctx path j).steps = .error (.misread path (.badRecord ScenarioRecord.model issues)) := by
  simp only [ofJson, h]
  rfl

/-- What is read strictly is read leniently, to the same steps. What is read leniently alone has two
spellings of one amount that say different numbers, and the strict error names the later one of them, if all numbers
are short enough to be written, as those of a JSON text are (`Json.isWritable_of_parse`). Under either context the
payments of every transaction are the ones that its first spellings say. -/
theorem strict_refines_lenient (ctx : Context) (path : String) (j : Json) :
    let strict := (ofJson (ctx.withStrict true) path j).steps
    let lenient := (ofJson (ctx.withStrict false) path j).steps
    (∀ steps, strict = .ok steps → lenient = .ok steps) ∧
    (∀ steps e, lenient = .ok steps → strict = .error e →
      ∃ r, ScenarioRecord.ofJson j = .ok r ∧ r.Clashes ctx e ∧ (j.isWritable = true → e.isMisreading = true)) ∧
    ∀ s steps, (ofJson (ctx.withStrict s) path j).steps = .ok steps →
      ∃ r, ScenarioRecord.ofJson j = .ok r ∧
        List.Forall₂ (fun step p => p.1.Pays (ctx.withStrict s) p.2 step) steps r.steps.zipIdx := by
  intro strict lenient
  cases hj : ScenarioRecord.ofJson j with
  | error issues =>
    have hsteps : ∀ s, (ofJson (ctx.withStrict s) path j).steps =
      .error (.misread path (.badRecord ScenarioRecord.model issues)) := fun s => steps_ofJson_error _ path hj
    simp [strict, lenient, hsteps]
  | ok r =>
    have hsteps : ∀ s, (ofJson (ctx.withStrict s) path j).steps = Step.readFrom (ctx.withStrict s) 0 r.steps :=
      fun s => steps_ofJson _ path hj
    have hrefines : Refines (r.Clashes ctx) strict lenient := by
      simp only [strict, lenient, hsteps]
      exact readFrom_refines fun s i hs e he => ⟨(s, i), hs, he⟩
    refine ⟨fun _ => hrefines.ok_of_ok, fun _ e hlenient hstrict => ?_, fun s steps h => ⟨r, rfl, ?_⟩⟩
    · have hclash : r.Clashes ctx e := hrefines.error_of_ok hlenient hstrict
      exact ⟨r, rfl, hclash, hclash.isMisreading hj⟩
    · rw [hsteps] at h
      exact (forall₂_of_readFrom h).imp fun _ _ => pays_of_readStep

end Scenario

/-! ### An amount with two spellings -/

open Fixture

/-- A scenario of one call whose native amount is spelled twice. -/
def spelledTwice (native value : Json) : Json := .object [("steps", .list [.object [("step", .text "scCall"),
  ("tx", .object [("from", .text "address:a"), ("to", .text "address:b"), ("nativeAmount", native),
    ("value", value)])]])]

/-- Spellings that agree as numbers are read under either context, and to the same steps; of two that clash
the strict error names the older one. -/
theorem strict_refines_lenient_spelledTwice :
    let steps (s : Bool) (native value : Json) :=
      (Scenario.ofJson (Context.withStrict {} s) "case.scen.json" (spelledTwice native value)).steps
    (∃ ss r, steps true (.text "1,000") (.int 1000) = .ok ss ∧ steps false (.text "1,000") (.int 1000) = .ok ss ∧
      List.Forall₂ (fun step p => p.1.Pays (Context.withStrict {} true) p.2 step) ss
        (ScenarioRecord.steps r).zipIdx) ∧
    ∃ ss r e, steps false (.int 1) (.int 2) = .ok ss ∧ steps true (.int 1) (.int 2) = .error e ∧
      e = .misread "steps[0].tx.value" (.conflict "nativeAmount" (.int 2) (.int 1)) ∧
      ScenarioRecord.Clashes r {} e := by
  intro steps
  constructor
  · have hread : ∃ ss, steps true (.text "1,000") (.int 1000) = .ok ss := ⟨_, rfl⟩
    obtain ⟨ss, hss⟩ := hread
    obtain ⟨hrefines, -, hpays⟩ :=
      Scenario.strict_refines_lenient {} "case.scen.json" (spelledTwice (.text "1,000") (.int 1000))
    obtain ⟨r, -, hr⟩ := hpays true ss hss
    exact ⟨ss, r, hss, hrefines ss hss, hr⟩
  · have hread : ∃ ss, steps false (.int 1) (.int 2) = .ok ss := ⟨_, rfl⟩
    obtain ⟨ss, hss⟩ := hread
    have hstrict : steps true (.int 1) (.int 2) = .error
      (if Text.isWritable 2 && Text.isWritable 1 then
        .misread "steps[0].tx.value" (.conflict "nativeAmount" (.int 2) (.int 1)) else .unwritable) := rfl
    have hwritable : (Text.isWritable 2 && Text.isWritable 1) = true :=
      Bool.and_eq_true_iff.2
        ⟨Text.isWritable_of_lt_pow (k := 1) (by decide) (by decide),
          Text.isWritable_of_lt_pow (k := 1) (by decide) (by decide)⟩
    rw [if_pos hwritable] at hstrict
    obtain ⟨-, hclash, -⟩ := Scenario.strict_refines_lenient {} "case.scen.json" (spelledTwice (.int 1) (.int 2))
    obtain ⟨r, -, hr, -⟩ := hclash ss _ hss hstrict
    exact ⟨ss, r, _, hss, hstrict, rfl, hr⟩

end TrialLedger
