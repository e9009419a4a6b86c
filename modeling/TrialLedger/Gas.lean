import TrialLedger.Action
import TrialLedger.Amount

/-! Gas budgets. A frame pays from its own meter, and the meters of the frames that it
starts are carved out of it. -/

namespace TrialLedger

structure Meter where
  limit : Amount
  remaining : Amount

namespace Meter

def full (limit : Amount) : Meter := ⟨limit, limit⟩

def used (m : Meter) : Except Fault Amount := m.limit.minus m.remaining

/-- What a charge takes: all that is left when the charge cannot be paid. -/
def taken (m : Meter) (amount : Amount) : Amount := if m.remaining.lt amount then m.remaining else amount

/-- Takes the amount off what is left. -/
def withdraw (amount : Amount) : Action Meter Unit := fun m =>
  match m.remaining.minus amount with
  | .ok left => (.ok (), { m with remaining := left })
  | .error f => (.error (.fault f), m)

/-- Takes the amount. A charge that cannot be paid burns what is left. -/
def charge (amount : Amount) : Action Meter Unit := fun m =>
  if m.remaining.lt amount then (.error (.failure .outOfGas), { m with remaining := 0 })
  else withdraw amount m

/-- Carves a meter out of this one, of all that is left unless an amount is given. A request
that cannot be met changes nothing. -/
def reserve (requested : Option Amount) : Action Meter Meter := fun m =>
  let amount := requested.getD m.remaining
  if m.remaining.lt amount then (.error (.failure .outOfGas), m)
  else (do
    withdraw amount
    return full amount : Action Meter Meter) m

/-- Adds what another meter has left; that meter keeps it too. -/
def refund (child : Meter) : Action Meter Unit := fun m =>
  match m.remaining.plus child.remaining with
  | .ok left => (.ok (), { m with remaining := left })
  | .error f => (.error (.fault f), m)

def text (m : Meter) : String := "GasMeter(limit=" ++ m.limit.text ++ ", remaining=" ++ m.remaining.text ++ ")"

end Meter

end TrialLedger
