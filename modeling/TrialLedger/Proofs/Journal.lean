import Mathlib
import TrialLedger.Journal
import TrialLedger.Proofs.Amount

/-! What a journal tells about gas: how much was charged in all, and how much was set aside for
calls that never run. A journal has its newest event first, so it is read from its end. -/

namespace TrialLedger

/-! ### Charges -/

def Event.charge : Event → Int
  | .charged a => a.int
  | _ => 0

/-- All gas that was charged, in frames that were committed and in frames that were undone. -/
def charged (journal : List Event) : Int := (journal.map Event.charge).sum

@[simp] theorem charged_cons (e : Event) (journal : List Event) :
    charged (e :: journal) = e.charge + charged journal :=
  List.sum_cons

theorem charged_idle {e : Event} (h : e.charge = 0) (journal : List Event) :
    charged (e :: journal) = charged journal := by
  rw [charged_cons, h, Int.zero_add]

/-! ### Gas set aside -/

structure Reserves where
  /-- Set aside for calls that will not run. -/
  stranded : Int := 0
  /-- Set aside last, and neither handed on nor given back so far. -/
  loose : Int := 0
  /-- For every frame that has not ended, the budgets of the calls that it has queued. The innermost
  frame comes first. -/
  pending : List Int := []

namespace Reserves

/-- More is queued by the innermost frame. -/
def add (n : Int) : List Int → List Int
  | [] => []
  | m :: r => (m + n) :: r

/-- A frame takes what was set aside for it, and a queued call keeps it. What is loose when more
is set aside or its frame ends is stranded, and so is what a frame has queued when it is undone. A
frame that is committed passes it on. -/
def after (t : Reserves) : Event → Reserves
  | .entered .. => { t with loose := 0, pending := 0 :: t.pending }
  | .reserved a => { t with stranded := t.stranded + t.loose, loose := a.int }
  | .refunded _ => { t with loose := 0 }
  | .queued a => { t with loose := 0, pending := add a.budget.int t.pending }
  | .left true _ => ⟨t.stranded + t.loose, 0, add (t.pending.headD 0) t.pending.tail⟩
  | .left false _ => ⟨t.stranded + t.loose + t.pending.headD 0, 0, t.pending.tail⟩
  | .started | .charged _ | .stored _ | .logged _ => t

/-- What has come of the gas that was set aside. -/
def of (journal : List Event) : Reserves := journal.foldr (fun e t => t.after e) {}

@[simp] theorem of_cons (e : Event) (journal : List Event) :
    of (e :: journal) = (of journal).after e := rfl

end Reserves

/-- The gas that was set aside for calls that never run and that nobody was given back. -/
def stranded (journal : List Event) : Int := (Reserves.of journal).stranded

/-- All gas that has gone. -/
def spent (journal : List Event) : Int := charged journal + stranded journal

end TrialLedger
