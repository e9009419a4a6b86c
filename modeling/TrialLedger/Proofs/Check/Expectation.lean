import TrialLedger.Fixture.Pattern
import TrialLedger.Proofs.Check.Logs
import TrialLedger.Proofs.Fixture.Place

/-! Which results are as an expectation says, and what is reported of the others: the first part that is not, in
the order status, message, data, logs, gas. An expectation that asks for less lets all results pass that have
passed. -/

namespace TrialLedger.Check

namespace Expectation

variable {e e' : Expectation} {r : TransactionResult}

/-- The message is a text, whose bytes are accepted. -/
def AcceptsMessage (e : Expectation) (r : TransactionResult) : Prop :=
  ∃ b, r.message.textBytes = .ok b ∧ e.message.Accepts b

/-- All parts of a result are accepted. What is left of the gas is a number, and is compared as one. -/
structure Accepts (e : Expectation) (r : TransactionResult) : Prop where
  status : e.status.Accepts r.status.code
  message : e.AcceptsMessage r
  out : e.out.Accepts r.data
  logs : e.logs.Accepts r.logs
  gas : ∀ n ∈ e.gas.asked, sameAmount n r.gasRemaining = true

/-- The report about a result, which is about the first part that is not accepted. -/
inductive Reports (e : Expectation) (r : TransactionResult) : Mismatch → Prop where
  | status (h : ¬ e.status.Accepts r.status.code) :
    Reports e r ⟨"status", e.status.written, .text (statusText r)⟩
  | message (hstatus : e.status.Accepts r.status.code) {b : Bytes} (hb : r.message.textBytes = .ok b)
    (h : ¬ e.message.Accepts b) : Reports e r ⟨"message", e.message.written, r.message⟩
  | out (hstatus : e.status.Accepts r.status.code) (hmessage : e.AcceptsMessage r) {m : Mismatch}
    (h : e.out.Reports "out" r.data m) : Reports e r m
  | logs (hstatus : e.status.Accepts r.status.code) (hmessage : e.AcceptsMessage r) (hout : e.out.Accepts r.data)
    {m : Mismatch} (h : e.logs.Reports r.logs m) : Reports e r m
  | gas (hstatus : e.status.Accepts r.status.code) (hmessage : e.AcceptsMessage r) (hout : e.out.Accepts r.data)
    (hlogs : e.logs.Accepts r.logs) (h : ¬ ∀ n ∈ e.gas.asked, sameAmount n r.gasRemaining = true) :
    Reports e r ⟨"gas", e.gas.written, r.gasRemaining.value⟩

theorem acceptsMessage_iff {b : Bytes} (hb : r.message.textBytes = .ok b) :
    e.AcceptsMessage r ↔ e.message.Accepts b := by
  constructor
  · rintro ⟨b', hb', h⟩
    obtain rfl := Except.ok.inj (hb'.symm.trans hb)
    exact h
  · exact fun h => ⟨b, hb, h⟩

theorem not_acceptsMessage {f : Fault} (hf : r.message.textBytes = .error f) : ¬ e.AcceptsMessage r := by
  rintro ⟨b, hb, -⟩
  cases hf.symm.trans hb

/-! ### The comparison -/

/-- Unless the status is wrong, the message has to have bytes, and then the other parts are compared. -/
theorem mismatch_of_status (h : e.status.Accepts r.status.code) :
    e.mismatch r = r.message.textBytes.map fun b => e.laterMismatch r b := by
  rw [mismatch, Pattern.mismatch_eq_none.2 h]

theorem mismatch_of_not_status (h : ¬ e.status.Accepts r.status.code) :
    e.mismatch r = .ok (some ⟨"status", e.status.written, .text (statusText r)⟩) := by
  rw [mismatch, Pattern.mismatch_eq_some.2 ⟨h, rfl⟩]

section Later

variable (hstatus : e.status.Accepts r.status.code) {b : Bytes} (hb : r.message.textBytes = .ok b)
include hstatus hb

theorem laterMismatch_eq_none : e.laterMismatch r b = none ↔ e.Accepts r := by
  simp only [laterMismatch, Option.or_eq_none_iff, Pattern.mismatch_eq_none, Pattern.mismatchBy_eq_none,
    ListPattern.mismatch_eq_none, LogsPattern.mismatch_eq_none]
  constructor
  · rintro ⟨hmessage, hout, hlogs, hgas⟩
    exact ⟨hstatus, (acceptsMessage_iff hb).2 hmessage, hout, hlogs, hgas⟩
  · exact fun h => ⟨(acceptsMessage_iff hb).1 h.message, h.out, h.logs, h.gas⟩

theorem laterMismatch_eq_some {m : Mismatch} : e.laterMismatch r b = some m ↔ e.Reports r m := by
  simp only [laterMismatch, Option.or_eq_some_iff, Pattern.mismatch_eq_none, Pattern.mismatch_eq_some,
    Pattern.mismatchBy_eq_some, ListPattern.mismatch_eq_none, ListPattern.mismatch_eq_some,
    LogsPattern.mismatch_eq_none, LogsPattern.mismatch_eq_some]
  constructor
  · rintro (⟨h, rfl⟩ | ⟨hmessage, hlater⟩)
    · exact .message hstatus hb h
    · have hmessage := (acceptsMessage_iff hb).2 hmessage
      obtain h | ⟨hout, h | ⟨hlogs, h, rfl⟩⟩ := hlater
      · exact .out hstatus hmessage h
      · exact .logs hstatus hmessage hout h
      · exact .gas hstatus hmessage hout hlogs h
  · rintro (h | ⟨-, hb', h⟩ | ⟨-, hmessage, h⟩ | ⟨-, hmessage, hout, h⟩ | ⟨-, hmessage, hout, hlogs, h⟩)
    · exact absurd hstatus h
    · obtain rfl := Except.ok.inj (hb'.symm.trans hb)
      exact .inl ⟨h, rfl⟩
    · exact .inr ⟨(acceptsMessage_iff hb).1 hmessage, .inl h⟩
    · exact .inr ⟨(acceptsMessage_iff hb).1 hmessage, .inr ⟨hout, .inl h⟩⟩
    · exact .inr ⟨(acceptsMessage_iff hb).1 hmessage, .inr ⟨hout, .inr ⟨hlogs, h, rfl⟩⟩⟩

end Later

theorem mismatch_eq_ok_none : e.mismatch r = .ok none ↔ e.Accepts r := by
  by_cases hstatus : e.status.Accepts r.status.code
  · rw [mismatch_of_status hstatus]
    cases hb : r.message.textBytes with
    | error f => exact iff_of_false nofun fun h => not_acceptsMessage hb h.message
    | ok b => rw [Except.map, Except.ok.injEq, laterMismatch_eq_none hstatus hb]
  · rw [mismatch_of_not_status hstatus]
    exact iff_of_false nofun fun h => hstatus h.status

theorem mismatch_eq_ok_some {m : Mismatch} : e.mismatch r = .ok (some m) ↔ e.Reports r m := by
  by_cases hstatus : e.status.Accepts r.status.code
  · rw [mismatch_of_status hstatus]
    cases hb : r.message.textBytes with
    | error f =>
      refine iff_of_false nofun fun h => ?_
      cases h with
      | status h => exact h hstatus
      | message _ hb' => cases hb.symm.trans hb'
      | out _ hmessage | logs _ hmessage | gas _ hmessage => exact not_acceptsMessage hb hmessage
    | ok b => rw [Except.map, Except.ok.injEq, laterMismatch_eq_some hstatus hb]
  · rw [mismatch_of_not_status hstatus, Except.ok.injEq, Option.some.injEq]
    constructor
    · rintro rfl
      exact .status hstatus
    · intro h
      cases h with
      | status => rfl
      | message h | out h | logs h | gas h => exact absurd h hstatus

/-- There is no answer where the message has no bytes and is looked at. -/
theorem mismatch_eq_error {f : Fault} :
    e.mismatch r = .error f ↔ e.status.Accepts r.status.code ∧ r.message.textBytes = .error f := by
  by_cases hstatus : e.status.Accepts r.status.code
  · rw [mismatch_of_status hstatus, and_iff_right hstatus]
    cases r.message.textBytes <;> simp [Except.map]
  · rw [mismatch_of_not_status hstatus]
    exact iff_of_false nofun fun h => hstatus h.1

/-! ### Asking for less -/

/-- No part of the other expectation asks for more. -/
structure Looser (e e' : Expectation) : Prop where
  status : e.status.Looser e'.status
  message : e.message.Looser e'.message
  out : e.out.Looser e'.out
  logs : e.logs.Looser e'.logs
  gas : e.gas.Looser e'.gas

theorem Looser.refl (e : Expectation) : e.Looser e := ⟨.same _, .same _, .refl _, .refl _, .same _⟩

theorem Accepts.mono (ha : e.Accepts r) (h : e.Looser e') : e'.Accepts r := by
  have hmessage : e'.AcceptsMessage r := ha.message.imp fun b hb => ⟨hb.1, hb.2.mono h.message⟩
  exact ⟨ha.status.mono h.status, hmessage, ha.out.mono h.out, ha.logs.mono h.logs,
    fun n hn => ha.gas n (h.gas.asked hn)⟩

theorem mismatch_mono (h : e.Looser e') (hr : e.mismatch r = .ok none) : e'.mismatch r = .ok none :=
  mismatch_eq_ok_none.2 ((mismatch_eq_ok_none.1 hr).mono h)

/-- A last `+` in a fixture makes exact patterns unordered. -/
theorem readLogsPattern_plus {ctx : Fixture.Context} {path : Text} {items : List Json}
    {patterns : List LogPattern} (h : Fixture.readLogsPattern ctx path (.list items) = .ok (.exact patterns)) :
    Fixture.readLogsPattern ctx path (.list (items ++ [.text "+"])) = .ok (.unordered patterns) := by
  have hplus : Fixture.endsWithPlus (items ++ [.text "+"]) = true := by
    rw [Fixture.endsWithPlus, List.getLast?_concat]
    rfl
  simp only [Fixture.readLogsPattern, Json.isText, Bool.false_eq_true, if_false] at h ⊢
  rw [if_pos hplus, List.dropLast_concat]
  split_ifs at h
  · obtain ⟨_, -, h⟩ := Fixture.bind_eq_ok.1 h
    cases h
  · obtain ⟨_, hread, h⟩ := Fixture.bind_eq_ok.1 h
    cases h
    rw [hread]
    rfl

/-- Which results pass, and what is reported of the others: nothing exactly when all parts are accepted, and
otherwise the first part that is not. There is an answer whenever the message is a text. An expectation that asks
for less lets all results pass that have passed. It does with a wildcard in place of a value, a list or a log, and
with a last `+` behind exact logs. -/
theorem mismatch_reports_first :
    (∀ (e : Expectation) (r : TransactionResult),
      (e.mismatch r = .ok none ↔ e.Accepts r) ∧ (∀ m, e.mismatch r = .ok (some m) ↔ e.Reports r m) ∧
        ∀ f, e.mismatch r = .error f ↔ e.status.Accepts r.status.code ∧ r.message.textBytes = .error f) ∧
    (∀ e e' : Expectation, e.Looser e' → ∀ r, e.mismatch r = .ok none → e'.mismatch r = .ok none) ∧
    (∀ e : Expectation, e.Looser e) ∧ (∀ p : LogPattern, p.Looser {}) ∧
    ∀ ctx path items patterns, Fixture.readLogsPattern ctx path (.list items) = .ok (.exact patterns) →
      Fixture.readLogsPattern ctx path (.list (items ++ [.text "+"])) = .ok (.unordered patterns) ∧
        ∀ (e : Expectation) (r : TransactionResult), e.logs = .exact patterns → e.mismatch r = .ok none →
          { e with logs := .unordered patterns }.mismatch r = .ok none := by
  refine ⟨fun e r => ⟨mismatch_eq_ok_none, fun _ => mismatch_eq_ok_some, fun _ => mismatch_eq_error⟩,
    fun e e' h r => mismatch_mono h, Looser.refl, LogPattern.looser_any, fun ctx path items patterns h =>
    ⟨readLogsPattern_plus h, fun e r hlogs hr => mismatch_mono ?_ hr⟩⟩
  have hmore : e.logs.Looser (.unordered patterns) := hlogs ▸ .more (List.forall₂_same.2 fun p _ => .refl p)
  exact { Looser.refl e with logs := hmore }

end Expectation

end TrialLedger.Check
