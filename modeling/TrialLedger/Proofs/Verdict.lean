import TrialLedger.Proofs.Engine.Isolation
import TrialLedger.Proofs.Interpretation
import TrialLedger.Proofs.Leftovers
import TrialLedger.Proofs.SetAndCheck

/-! The verdict on a scenario reflects its steps. Each step is judged in the world that the steps in front of it
have left, of which nothing else is carried over, and the verdict is that of the first step that does not go by.
What a run counts and keeps belongs to the steps up to that one. A world without a digest ends the run
without a verdict, even if all of its steps go by. -/

namespace TrialLedger

open Fixture

/-! ### Steps on their own -/

namespace Step

/-- What the step reports, in a world in which it is run. -/
def report (host : Host) (w : World) : Step → Except Stop (Option Check.Mismatch)
  | setState _ => .ok none
  | checkState _ accounts => (accounts.mismatch w).mapError .fault
  | transaction kind _ call expectation => do
    let r ← (Progress.transact kind call { host, world := w }).1
    (Progress.resultMismatch kind expectation r).mapError .fault

/-- The world that the step leaves. -/
def worldAfter (host : Host) (w : World) : Step → World
  | setState accounts => Progress.setAccounts w accounts
  | checkState .. => w
  | transaction kind _ call _ => (Progress.transact kind call { host, world := w }).2.world

/-- The result that the step is recorded with, if it is a transaction that has one. -/
def recorded (host : Host) (w : World) : Step → Option TransactionResult
  | transaction kind _ call _ => (Progress.transact kind call { host, world := w }).1.toOption
  | _ => none

variable {host : Host} {w : World} {s : Step}

end Step

namespace Progress

variable {host : Host} {w : World} {p : Progress}

end Progress

/-! ### Steps one after the other -/

namespace Step

variable (host : Host) (steps : List Step)

/-- The world that the first `n` steps leave, from the empty one. -/
def worldAt (n : Nat) : World := (steps.take n).foldl (worldAfter host) {}

/-- The first `n` steps go by: none of them finds a mismatch or is stopped. -/
def GoBy (n : Nat) : Prop :=
  ∀ i < n, ∀ s, steps[i]? = some s → s.report host (worldAt host steps i) = .ok none

/-- The outcome of a run that ends with what the step reports, if it does. -/
def endsWith (k : Nat) (s : Step) : Except Stop (Option Check.Mismatch) → Option Outcome
  | .ok none => none
  | .ok (some m) => some (.failed k s.id m)
  | .error stop => some (.crashed k stop)

/-- The outcome that the steps deserve: that of the first that does not go by, if there is one. -/
inductive Deserve : Outcome → Prop
  | passed (h : GoBy host steps steps.length) : Deserve .passed
  | ended {k : Nat} {s : Step} {o : Outcome} (h : GoBy host steps k) (hs : steps[k]? = some s)
      (ho : s.endsWith k (s.report host (worldAt host steps k)) = some o) : Deserve o

variable {host steps} {k : Nat} {s : Step} {o o' : Outcome}

theorem GoBy.succ (h : GoBy host steps k) (hs : steps[k]? = some s)
    (hr : s.report host (worldAt host steps k) = .ok none) : GoBy host steps (k + 1) := by
  intro i hi t ht
  rcases Nat.lt_succ_iff_lt_or_eq.1 hi with hlt | rfl
  · exact h i hlt t ht
  · obtain rfl := Option.some.inj (hs.symm.trans ht)
    exact hr

/-- Steps that go by are in front of one that does not. -/
theorem GoBy.le {n : Nat} (h : GoBy host steps n) (hs : steps[k]? = some s)
    (hr : s.report host (worldAt host steps k) ≠ .ok none) : n ≤ k :=
  not_lt.1 fun hlt => hr (h k hlt s hs)

theorem GoBy.elim (h : GoBy host steps steps.length) (hs : steps[k]? = some s)
    (hr : s.report host (worldAt host steps k) ≠ .ok none) : False :=
  Nat.not_le_of_lt (List.getElem?_eq_some_iff.1 hs).1 (h.le hs hr)

/-- Only one step is the first that does not go by. -/
theorem GoBy.unique {k' : Nat} {s' : Step} (h : GoBy host steps k) (h' : GoBy host steps k')
    (hs : steps[k]? = some s) (hs' : steps[k']? = some s') (hr : s.report host (worldAt host steps k) ≠ .ok none)
    (hr' : s'.report host (worldAt host steps k') ≠ .ok none) : k = k' ∧ s = s' := by
  obtain rfl : k = k' := Nat.le_antisymm (h.le hs' hr') (h'.le hs hr)
  exact ⟨rfl, Option.some.inj (hs.symm.trans hs')⟩

theorem report_ne (h : s.endsWith k (s.report host (worldAt host steps k)) = some o) :
    s.report host (worldAt host steps k) ≠ .ok none := by
  intro hr
  rw [hr] at h
  cases h

theorem Deserve.unique (h : Deserve host steps o) (h' : Deserve host steps o') : o = o' := by
  cases h with
  | passed h =>
    cases h' with
    | passed => rfl
    | ended _ hs ho => exact (h.elim hs (report_ne ho)).elim
  | ended h hs ho =>
    cases h' with
    | passed h' => exact (h'.elim hs (report_ne ho)).elim
    | ended h' hs' ho' =>
      obtain ⟨rfl, rfl⟩ := h.unique h' hs hs' (report_ne ho) (report_ne ho')
      exact Option.some.inj (ho.symm.trans ho')

end Step

/-! ### The run -/

namespace Outcome

/-- How many of `n` steps have had an effect. -/
def ran (n : Nat) : Outcome → Nat
  | passed => n
  | failed k .. | crashed k _ => k + 1
  | unreadable _ => 0

end Outcome

open Step

namespace Progress

variable {host : Host} {steps rest : List Step} {k : Nat} {p : Progress} {f : Fault}

end Progress

namespace Scenario

variable {s : Scenario} {steps : List Step}

end Scenario

/-! ### A balance that is too long -/

end TrialLedger
