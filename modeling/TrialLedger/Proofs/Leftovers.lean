import TrialLedger.Proofs.Engine.Stable
import TrialLedger.Proofs.Engine.Unbounded

/-! What an engine carries from one transaction to the next. A frame that ends is the innermost one, however
it ends, so the stack is what it was before that frame; a transaction that breaks off in a nested frame, in a
deferred call or in a callback leaves no call active. Calls that are still queued and the journal of a
transaction do stay behind, but the next transaction starts without them: it depends on the world alone. -/

namespace TrialLedger

namespace Frame

theorem launch_stack (host : Host) (room : Nat) (f : Frame) (movesValue : Bool) (stage : Stage) :
    (Frame.launch host room f movesValue stage).stage.stack = stage.stack := by
  rw [launch_eq, launchBody_stack]

/-- A frame that has come to its end, or that breaks off, lies on top of those that were there before it. -/
theorem bodyAt_stack (host : Host) (room : Nat) (f : Frame) (movesValue : Bool) (stage : Stage) :
    (bodyAt host room f movesValue (f.entered stage)).2.stage.stack = f.call :: stage.stack := by
  cases room with
  | zero => rfl
  | succ room =>
    have hagree : (Frame.launch host room).Agree (f.call :: stage.stack) (Frame.launch host room) :=
      fun g moves inner hs => ⟨rfl, (launch_stack host room g moves inner).trans hs⟩
    exact (onStack_withstands hagree).body movesValue (f.entered stage) rfl

end Frame

namespace Engine

variable {e : Engine}

/-- No call is active when a transaction has ended, in whichever way. -/
theorem execute_active (hidle : e.active = []) (c : Call) : (execute c e).2.active = [] := by
  have hl : e.launch.KeepsStage fun stage => stage.stack = [] := fun f movesValue stage hs =>
    (Frame.launch_stack e.host e.room f movesValue stage).trans hs
  exact execute_stage hl hidle c rfl

theorem perform_active (hidle : e.active = []) (o : Operation) : (e.perform o).active = [] := by
  cases o with
  | execute c => exact execute_active hidle c
  | query c => exact execute_active hidle c

theorem foldl_perform_idle (hidle : e.active = []) (os : List Operation) :
    (os.foldl perform e).active = [] ∧ (os.foldl perform e).host = e.host := by
  induction os generalizing e with
  | nil => exact ⟨hidle, rfl⟩
  | cons o os ih =>
    obtain ⟨hactive, hhost⟩ := ih (perform_active hidle o)
    exact ⟨hactive, hhost.trans (perform_host e o)⟩

/-- A transaction of an engine without active calls depends on nothing but its world. -/
theorem execute_fresh (hidle : e.active = []) (c : Call) :
    execute c e = execute c { host := e.host, world := e.world } := by
  obtain ⟨host, world, active, backlog, journal⟩ := e
  obtain rfl : active = [] := hidle
  rfl

/-- Whatever an engine has done, no call is active, and it does the next transaction as an engine does that is
set up anew with its world. A query besides leaves the world as it is, and its result is the one that the
transaction would have had. -/
theorem perform_fresh (host : Host) (world : World) (os : List Operation) (c : Call) :
    let e := os.foldl perform { host, world }
    let fresh : Engine := { host, world := e.world }
    e.active = [] ∧ execute c e = execute c fresh ∧ query c e = query c fresh ∧
      (query c e).2.world = e.world ∧ (query c e).1 = (execute c e).1 ∧
      ∀ room f movesValue stage,
        (Frame.bodyAt host room f movesValue (f.entered stage)).2.stage.stack = f.call :: stage.stack := by
  intro e fresh
  obtain ⟨hidle, hhost⟩ := foldl_perform_idle (e := { host, world }) rfl os
  have hexecute : execute c e = execute c fresh := by
    rw [execute_fresh hidle c, hhost]
  have hquery : query c e = query c fresh := by
    unfold query
    rw [hexecute]
  exact ⟨hidle, hexecute, hquery, rfl, rfl, Frame.bodyAt_stack host⟩

end Engine

end TrialLedger
