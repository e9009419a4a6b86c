import TrialLedger.Proofs.Engine.Matches

/-! Frames without the room by which they are computed. A frame ends when all frames do that it may nest,
and it ends in one way alone, since a body depends on nothing but the ends of the frames that it nests. The
room that a launch is given is what the limit on the stack leaves. -/

namespace TrialLedger

/-! ### How frames end -/

/-- A frame ends, however much room there is for others. Below the deepest level it is refused. Elsewhere
its body runs, and is told the ends of the frames that it nests. -/
inductive Frame.Ends (host : Host) : Frame → Bool → Stage → Exit → Prop where
  | refused {f : Frame} {movesValue : Bool} {stage : Stage} :
    host.settings.maxCallDepth < stage.stack.length →
      Ends host f movesValue stage
        (launchBody (fun _ _ => Action.fail .callDepthExceeded) f movesValue stage)
  | ran {f : Frame} {movesValue : Bool} {stage : Stage} {nested : Launch} :
    stage.stack.length ≤ host.settings.maxCallDepth →
      (∀ g moves inner, inner.stack = f.call :: stage.stack →
        Ends host g moves inner (nested g moves inner)) →
      Ends host f movesValue stage (launchBody (body host nested) f movesValue stage)

/-- Every frame that begins on the given stack ends as the launch says. -/
def Launch.Serves (host : Host) (stack : List Call) (launch : Launch) : Prop :=
  ∀ f movesValue stage, stage.stack = stack → Frame.Ends host f movesValue stage (launch f movesValue stage)

/-- The launches do the same on the given stack, and leave it as it is. -/
def Launch.Agree (stack : List Call) (launch launch' : Launch) : Prop :=
  ∀ f movesValue stage, stage.stack = stack →
    launch f movesValue stage = launch' f movesValue stage ∧
      (launch f movesValue stage).stage.stack = stack

namespace Frame

open TrialLedger.Action (Matches)

variable {host : Host} {launch launch' : Launch} {stack : List Call} {f : Frame}

/-! ### A body depends on the frames that it nests alone -/

abbrev OnStack (stack : List Call) (s : Running) : Prop := s.stage.stack = stack

theorem onStack_withstands (hl : launch.Agree stack launch') : Withstands (OnStack stack) launch where
  gas _ h := h
  payments _ h := h
  pending _ _ h := h
  world _ h := h
  noted _ h := h
  nested g movesValue h := (hl g movesValue _ h).2

theorem body_agree (host : Host) (hl : launch.Agree stack launch') (movesValue : Bool) :
    Matches (OnStack stack) (body host launch f movesValue) (body host launch' f movesValue) := by
  have hw := onStack_withstands hl
  have hcall : ∀ mode r, Matches (OnStack stack) (makeCall launch f r mode) (makeCall launch' f r mode) :=
    fun mode r => makeCall_matches (hw.keepsCalls r) (fun _ _ _ _ hs => (hl _ _ _ hs).1) mode
  have hk : Keeps (OnStack stack) (fun _ => True) host launch f := hw.keeps
  exact body_matches (.refl (fun _ _ _ => True) host) (fun _ _ => hw.metered.charge _) (hw.onWorld _)
    (fun _ he => runEndpoint_matches hk (answer_matches rfl fun _ => hcall _ _) (fun _ _ _ => trivial)
      (fun _ => (Program.asks_true _).given) he) movesValue

/-! ### Frames end in one way -/

theorem launchBody_stack (run : Frame → Bool → Action Running (List Bytes)) (f : Frame) (movesValue : Bool)
    (stage : Stage) : (launchBody run f movesValue stage).stage.stack = stage.stack := by
  rcases hr : run f movesValue (f.entered stage) with ⟨e | data, t⟩
  · rw [launchBody_of_error hr]
  · rw [launchBody_of_ok hr]

theorem Ends.stack_eq {movesValue : Bool} {stage : Stage} {exit : Exit}
    (h : Ends host f movesValue stage exit) : exit.stage.stack = stage.stack := by
  cases h <;> exact launchBody_stack _ _ _ _

theorem Ends.unique {movesValue : Bool} {stage : Stage} {exit exit' : Exit}
    (h : Ends host f movesValue stage exit) (h' : Ends host f movesValue stage exit') : exit = exit' := by
  induction h generalizing exit' with
  | refused hd =>
    cases h' with
    | refused _ => rfl
    | ran hd' _ => omega
  | @ran f movesValue stage nested hd hnested ih =>
    cases h' with
    | refused hd' => omega
    | @ran _ _ _ nested' _ hnested' =>
      have hagree : nested.Agree (f.call :: stage.stack) nested' := fun g moves inner hs =>
        ⟨ih g moves inner hs (hnested' g moves inner hs), (hnested g moves inner hs).stack_eq.trans hs⟩
      exact launchBody_congr (body_agree host hagree movesValue (f.entered stage) rfl)

/-- Launches that serve the same stack agree on it. -/
theorem serves_agree (h : launch.Serves host stack) (h' : launch'.Serves host stack) :
    launch.Agree stack launch' := fun f movesValue stage hs =>
  ⟨(h f movesValue stage hs).unique (h' f movesValue stage hs), (h f movesValue stage hs).stack_eq.trans hs⟩

/-- With as much room as the limit leaves, frames end as they are launched. -/
theorem launch_serves (host : Host) (room : Nat) {stack : List Call}
    (hroom : stack.length + room = host.settings.maxCallDepth + 1) :
    (Frame.launch host room).Serves host stack := by
  induction room generalizing stack with
  | zero =>
    rintro f movesValue stage rfl
    exact .refused (by omega)
  | succ room ih =>
    rintro f movesValue stage rfl
    exact .ran (by omega) (ih (by rw [List.length_cons]; omega))

end Frame

end TrialLedger
