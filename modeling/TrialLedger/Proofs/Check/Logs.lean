import Mathlib
import TrialLedger.Proofs.Check.Matching
import TrialLedger.Proofs.Check.Pattern

/-! Which logs are as patterns say, and what is reported of the others. Of a log it is the first part that is
wrong, in the order address, endpoint, data, topics. Exact patterns are still satisfied when more logs and any
order are allowed. -/

namespace TrialLedger.Check

/-! ### One log -/

namespace LogPattern

variable {p q : LogPattern} {path : String} {l : Log}

/-- All parts of a log are accepted. -/
structure Accepts (p : LogPattern) (l : Log) : Prop where
  address : p.address.Accepts l.address
  endpoint : p.endpoint.Accepts l.endpoint
  data : p.data.Accepts l.data
  topics : p.topics.Accepts l.topics

/-- The report about a log, which is about the first part that is not accepted. -/
inductive Reports (p : LogPattern) (path : String) (l : Log) : Mismatch → Prop where
  | address (h : ¬ p.address.Accepts l.address) :
    Reports p path l ⟨path ++ ".address", p.address.written, .bytes l.address⟩
  | endpoint (haddress : p.address.Accepts l.address) (h : ¬ p.endpoint.Accepts l.endpoint) :
    Reports p path l ⟨path ++ ".endpoint", p.endpoint.written, .bytes l.endpoint⟩
  | data (haddress : p.address.Accepts l.address) (hendpoint : p.endpoint.Accepts l.endpoint)
    (h : ¬ p.data.Accepts l.data) : Reports p path l ⟨path ++ ".data", p.data.written, .bytes l.data⟩
  | topics (haddress : p.address.Accepts l.address) (hendpoint : p.endpoint.Accepts l.endpoint)
    (hdata : p.data.Accepts l.data) {m : Mismatch} (h : p.topics.Reports (path ++ ".topics") l.topics m) :
    Reports p path l m

theorem mismatch_eq_none : p.mismatch path l = none ↔ p.Accepts l := by
  simp only [mismatch, Option.or_eq_none_iff, Pattern.mismatch_eq_none, ListPattern.mismatch_eq_none]
  constructor
  · rintro ⟨⟨haddress, hendpoint⟩, hdata, htopics⟩
    exact ⟨haddress, hendpoint, hdata, htopics⟩
  · exact fun h => ⟨⟨h.address, h.endpoint⟩, h.data, h.topics⟩

theorem mismatch_eq_some {m : Mismatch} : p.mismatch path l = some m ↔ p.Reports path l m := by
  simp only [mismatch, Option.or_eq_some_iff, Option.or_eq_none_iff, Pattern.mismatch_eq_none,
    Pattern.mismatch_eq_some, ListPattern.mismatch_eq_some]
  constructor
  · rintro ((⟨h, rfl⟩ | ⟨haddress, h, rfl⟩) | ⟨⟨haddress, hendpoint⟩, (⟨h, rfl⟩ | ⟨hdata, h⟩)⟩)
    · exact .address h
    · exact .endpoint haddress h
    · exact .data haddress hendpoint h
    · exact .topics haddress hendpoint hdata h
  · rintro (h | ⟨haddress, h⟩ | ⟨haddress, hendpoint, h⟩ | ⟨haddress, hendpoint, hdata, h⟩)
    · exact .inl (.inl ⟨h, rfl⟩)
    · exact .inl (.inr ⟨haddress, h, rfl⟩)
    · exact .inr ⟨⟨haddress, hendpoint⟩, .inl ⟨h, rfl⟩⟩
    · exact .inr ⟨⟨haddress, hendpoint⟩, .inr ⟨hdata, h⟩⟩

theorem accepts_iff : p.accepts l = true ↔ p.Accepts l := by
  rw [accepts, Option.isNone_iff_eq_none, mismatch_eq_none]

/-- No part of the other pattern asks for more. -/
structure Looser (p q : LogPattern) : Prop where
  address : p.address.Looser q.address
  endpoint : p.endpoint.Looser q.endpoint
  data : p.data.Looser q.data
  topics : p.topics.Looser q.topics

theorem Looser.refl (p : LogPattern) : p.Looser p := ⟨.same _, .same _, .same _, .refl _⟩

/-- The pattern for any log asks for nothing. -/
theorem looser_any (p : LogPattern) : p.Looser {} := ⟨.unspecified _, .unspecified _, .unspecified _, .unspecified _⟩

theorem Accepts.mono (ha : p.Accepts l) (h : p.Looser q) : q.Accepts l :=
  ⟨ha.address.mono h.address, ha.endpoint.mono h.endpoint, ha.data.mono h.data, ha.topics.mono h.topics⟩

end LogPattern

/-! ### All logs -/

namespace LogsPattern

variable {logs : List Log} {p q : LogsPattern}

/-- Exact patterns accept as many logs as they are, each at its position, and unordered ones need a log
each. -/
def Accepts (logs : List Log) : LogsPattern → Prop
  | exact patterns => List.Forall₂ LogPattern.Accepts patterns logs
  | unordered patterns => ∃ f : Fin patterns.length → Fin logs.length,
      Function.Injective f ∧ ∀ i, (patterns.get i).Accepts (logs.get (f i))
  | _ => True

/-- The report about all logs. Of unordered patterns it is about the first that finds no log of its own beside
those before it. -/
def Reports (logs : List Log) : LogsPattern → Mismatch → Prop
  | exact patterns, m =>
    ReportsInStep LogPattern.Accepts (fun path p l => p.Reports path l) "logs" patterns logs m
  | unordered patterns, m =>
    ∃ i, IsLeast {i | i < patterns.length ∧ ¬ (unordered (patterns.take (i + 1))).Accepts logs} i ∧
      m = ⟨"logs[" ++ toString i ++ "]", .text "a matching log", .text (unclaimedText logs.length)⟩
  | _, _ => False

theorem accepts_unordered (patterns : List LogPattern) :
    (unordered patterns).Accepts logs ↔ Assignable patterns logs := by
  simp only [Accepts, Assignable, LogPattern.accepts_iff, List.get_eq_getElem, Fin.getElem_fin]

theorem firstMismatch_eq (patterns : List LogPattern) (i : Nat) :
    firstMismatch i patterns logs = firstAt (fun i p l => p.mismatch (logPath i) l) i patterns logs := by
  induction patterns generalizing i logs with
  | nil => rfl
  | cons p ps ih =>
    cases logs with
    | nil => rfl
    | cons l ls => rw [firstMismatch, firstAt, ih]

theorem mismatch_exact (patterns : List LogPattern) : (exact patterns).mismatch logs =
    mismatchInStep (fun path p l => p.mismatch path l) "logs" patterns logs := by
  rw [mismatch, firstMismatch_eq]
  rfl

theorem mismatch_eq_none : p.mismatch logs = none ↔ p.Accepts logs := by
  cases p with
  | unspecified => exact iff_of_true rfl trivial
  | any => exact iff_of_true rfl trivial
  | exact patterns =>
    rw [mismatch_exact]
    exact mismatchInStep_eq_none fun _ _ _ => LogPattern.mismatch_eq_none
  | unordered patterns => rw [mismatch, Option.map_eq_none_iff, firstUnclaimed_eq_none, accepts_unordered]

theorem mismatch_eq_some {m : Mismatch} : p.mismatch logs = some m ↔ p.Reports logs m := by
  cases p with
  | unspecified => exact iff_of_false nofun id
  | any => exact iff_of_false nofun id
  | exact patterns =>
    rw [mismatch_exact]
    refine mismatchInStep_eq_some (fun path p l => ?_) fun path p l m => ?_
    · exact LogPattern.mismatch_eq_none
    · exact LogPattern.mismatch_eq_some
  | unordered patterns =>
    rw [mismatch, Option.map_eq_some_iff]
    simp only [firstUnclaimed_eq_some, ← accepts_unordered]
    exact exists_congr fun i => and_congr_right fun _ => eq_comm

example : (exact [{}, { topics := .exact [.star, .exact [1] (.text "0x01")] }]).mismatch
    [⟨[], [], [], []⟩, ⟨[], [], [[7], [2]], []⟩] = some ⟨"logs[1].topics[1]", .text "0x01", .bytes [2]⟩ := rfl

/-- The other pattern accepts all logs, or its logs do not ask for more, and it may allow others and any order. -/
inductive Looser : LogsPattern → LogsPattern → Prop where
  | any (p : LogsPattern) : Looser p .any
  | unspecified (p : LogsPattern) : Looser p .unspecified
  | exact {patterns patterns' : List LogPattern} (h : List.Forall₂ LogPattern.Looser patterns patterns') :
    Looser (.exact patterns) (.exact patterns')
  | unordered {patterns patterns' : List LogPattern} (h : List.Forall₂ LogPattern.Looser patterns patterns') :
    Looser (.unordered patterns) (.unordered patterns')
  | more {patterns patterns' : List LogPattern} (h : List.Forall₂ LogPattern.Looser patterns patterns') :
    Looser (.exact patterns) (.unordered patterns')

theorem Looser.refl (p : LogsPattern) : p.Looser p := by
  have hpatterns : ∀ patterns : List LogPattern, List.Forall₂ LogPattern.Looser patterns patterns := fun _ =>
    List.forall₂_same.2 fun p _ => .refl p
  cases p with
  | unspecified => exact .unspecified _
  | any => exact .any _
  | exact patterns => exact .exact (hpatterns patterns)
  | unordered patterns => exact .unordered (hpatterns patterns)

/-- In exact patterns each one has the log at its position. -/
theorem Accepts.unordered {patterns : List LogPattern} (h : (exact patterns).Accepts logs) :
    (LogsPattern.unordered patterns).Accepts logs := by
  obtain ⟨hlength, hlogs⟩ := List.forall₂_iff_get.1 h
  exact ⟨Fin.cast hlength, Fin.cast_injective hlength, fun i => hlogs i i.isLt _⟩

theorem Accepts.mono (ha : p.Accepts logs) (h : p.Looser q) : q.Accepts logs := by
  have hunordered : ∀ {patterns patterns' : List LogPattern}, List.Forall₂ LogPattern.Looser patterns patterns' →
      (LogsPattern.unordered patterns).Accepts logs → (LogsPattern.unordered patterns').Accepts logs := by
    rintro patterns patterns' hlooser ⟨f, hf, haccepts⟩
    obtain ⟨hlength, hparts⟩ := List.forall₂_iff_get.1 hlooser
    refine ⟨f ∘ Fin.cast hlength.symm, hf.comp (Fin.cast_injective _), fun i => ?_⟩
    exact (haccepts (i.cast hlength.symm)).mono (hparts i (i.cast hlength.symm).isLt i.isLt)
  cases h with
  | any => trivial
  | unspecified => trivial
  | exact h => exact forall₂_mono (fun hp h => hp.mono h) ha h
  | unordered h => exact hunordered h ha
  | more h => exact hunordered h ha.unordered

end LogsPattern

end TrialLedger.Check
