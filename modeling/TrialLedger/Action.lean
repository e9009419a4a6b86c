import TrialLedger.Stop

/-! Computations over a state that may stop. What was done to the state before a stop
stays done; undoing it is up to the caller. -/

namespace TrialLedger

def Action (σ α : Type) : Type := σ → Except Stop α × σ

namespace Action

variable {σ τ α β : Type}

def andThen (x : Action σ α) (f : α → Action σ β) : Action σ β := fun s =>
  match x s with
  | (.ok a, s') => f a s'
  | (.error e, s') => (.error e, s')

instance : Monad (Action σ) where
  pure a := fun s => (.ok a, s)
  bind := andThen

def stop (e : Stop) : Action σ α := fun s => (.error e, s)

def fail (f : Failure) : Action σ α := stop (.failure f)

def fault (f : Fault) : Action σ α := stop (.fault f)

def get : Action σ σ := fun s => (.ok s, s)

def modify (f : σ → σ) : Action σ Unit := fun s => (.ok (), f s)

/-- The result of the action, its stop included. -/
def attempt (x : Action σ α) : Action σ (Except Stop α) := fun s =>
  let (r, s') := x s
  (.ok r, s')

def ofExcept : Except Stop α → Action σ α
  | .ok a => fun s => (.ok a, s)
  | .error e => stop e

/-- Acts on a part of the state. -/
def zoom (part : τ → σ) (replace : τ → σ → τ) (x : Action σ α) : Action τ α := fun t =>
  let (r, s') := x (part t)
  (r, replace t s')

theorem pure_apply (a : α) (s : σ) : (pure a : Action σ α) s = (.ok a, s) := rfl

theorem bind_ok {x : Action σ α} {f : α → Action σ β} {s s' : σ} {a : α} (h : x s = (.ok a, s')) :
    (x >>= f) s = f a s' := by
  change andThen x f s = _
  simp [andThen, h]

theorem bind_error {x : Action σ α} {f : α → Action σ β} {s s' : σ} {e : Stop} (h : x s = (.error e, s')) :
    (x >>= f) s = (.error e, s') := by
  change andThen x f s = _
  simp [andThen, h]

end Action

end TrialLedger
