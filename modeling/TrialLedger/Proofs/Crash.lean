import TrialLedger.Proofs.Termination

/-! What a transaction leaves that breaks off. A frame that raises is undone with all that it nests, so a
transaction whose own call raises leaves the world as it was. Deferred calls come after that call has been
committed, and each is a frame on its own: when one of them raises, or a callback does, the frames that ended
before it stand, and the world is the one in which it was entered. -/

namespace TrialLedger

/-- Frames that stop leave the world as they found it. -/
def Launch.Undoes (launch : Launch) : Prop :=
  ∀ f movesValue stage e, (launch f movesValue stage).outcome = .error e →
    (launch f movesValue stage).stage.world = stage.world

theorem Frame.launchBody_undoes (run : Frame → Bool → Action Running (List Bytes)) : (launchBody run).Undoes := by
  intro f movesValue stage e he
  rcases hr : run f movesValue (f.entered stage) with ⟨x | data, t⟩
  · rw [launchBody_of_error hr]
  · rw [launchBody_of_ok hr] at he
    cases he

theorem Frame.launch_undoes (host : Host) (room : Nat) : (Frame.launch host room).Undoes := by
  rw [launch_eq]
  exact launchBody_undoes _

/-- The frame of a deferred call. -/
def AsyncCall.frame (a : AsyncCall) : Frame := ⟨a.call, a.budget, a.asyncDepth, none⟩

/-- The frame of the callback that is told how the call has ended, on what is left of its gas. -/
def AsyncCall.callbackFrame (a : AsyncCall) (c : Call) (told : CallResult × Meter) : Frame :=
  ⟨c, told.2.remaining, a.asyncDepth, some told.1⟩

namespace Drain

variable {launch : Launch} {a : AsyncCall} {d d' : Drain} {stop : Stop}

/-! ### One deferred call -/

/-- A deferred call has ended, and so has its callback if it names one. So much gas is left. -/
inductive Ended (launch : Launch) (a : AsyncCall) (d : Drain) : Amount → Drain → Prop where
  | alone {p : CallResult × Meter} {d' : Drain} : runFrame launch a.frame d = (.ok p, d') →
    hasCallback a = false → Ended launch a d p.2.remaining d'
  | told {p q : CallResult × Meter} {c : Call} {d' d'' : Drain} : runFrame launch a.frame d = (.ok p, d') →
    hasCallback a = true → callbackCall a p.1 p.2.remaining = .ok c →
      runFrame launch (a.callbackFrame c p) d' = (.ok q, d'') → Ended launch a d q.2.remaining d''

/-- A deferred call breaks off and leaves the world given last: the one in which the frame that raises was
entered, or the one that the last frame left when there is no callback to be made of what it is told or when
the gas cannot be paid back. -/
inductive BreaksOff (launch : Launch) (a : AsyncCall) (d : Drain) : Stop → World → Prop where
  | call {stop : Stop} {d' : Drain} : runFrame launch a.frame d = (.error stop, d') →
    BreaksOff launch a d stop d.stage.world
  | untold {stop : Stop} {p : CallResult × Meter} {d' : Drain} : runFrame launch a.frame d = (.ok p, d') →
    hasCallback a = true → callbackCall a p.1 p.2.remaining = .error stop →
      BreaksOff launch a d stop d'.stage.world
  | callback {stop : Stop} {p : CallResult × Meter} {c : Call} {d' d'' : Drain} :
    runFrame launch a.frame d = (.ok p, d') → hasCallback a = true →
      callbackCall a p.1 p.2.remaining = .ok c →
        runFrame launch (a.callbackFrame c p) d' = (.error stop, d'') →
          BreaksOff launch a d stop d'.stage.world
  | refund {stop : Stop} {left : Amount} {d' : Drain} : Ended launch a d left d' →
    (Meter.refund (Meter.full left) d'.meter).1 = .error stop → BreaksOff launch a d stop d'.stage.world

theorem runFrame_error (hl : launch.Undoes) {f : Frame} (h : runFrame launch f d = (.error stop, d')) :
    d'.stage.world = d.stage.world := by
  unfold runFrame at h
  dsimp only at h
  split at h
  · cases h
  · cases h
  · rename_i g hg
    cases h
    exact hl f true d.stage _ hg

/-- Paying back and recording is all that is left to do when the frames of a deferred call have ended. -/
theorem settle_error {left : Amount} {d₁ : Drain} {r : AsyncRecord} (hended : Ended launch a d left d₁)
    (h : (do
      Action.zoom Drain.meter (fun d m => { d with meter := m }) (Meter.refund (Meter.full left))
      Action.modify fun d => { d with records := d.records ++ [r] } : Action Drain Unit) d₁ = (.error stop, d')) :
    BreaksOff launch a d stop d'.stage.world := by
  rcases Action.bind_eq_error.1 h with h | ⟨_, _, _, h⟩
  · obtain ⟨m, hm, rfl⟩ := Action.zoom_eq.1 h
    have hbreaks : BreaksOff launch a d stop d₁.stage.world := .refund hended (congrArg Prod.fst hm)
    exact hbreaks
  · cases h

theorem runAsync_error (hl : launch.Undoes) (h : runAsync launch a d = (.error stop, d')) :
    BreaksOff launch a d stop d'.stage.world := by
  rcases Action.bind_eq_error.1 h with h | ⟨p, d₁, hown, h⟩
  · rw [runFrame_error hl h]
    exact .call h
  dsimp only at h
  by_cases hname : hasCallback a = true
  · rw [if_pos hname] at h
    rcases Action.bind_eq_error.1 h with h | ⟨c, d₂, hc, h⟩
    · rw [Action.ofExcept_apply] at h
      obtain ⟨huntold, rfl⟩ := Prod.mk.inj h
      exact .untold hown hname huntold
    · rw [Action.ofExcept_apply] at hc
      obtain ⟨htold, rfl⟩ := Prod.mk.inj hc
      rcases Action.bind_eq_error.1 h with h | ⟨q, d₂, hq, h⟩
      · rw [runFrame_error hl h]
        exact .callback hown hname htold h
      · exact settle_error (.told hown hname htold hq) h
  · rw [if_neg hname] at h
    exact settle_error (.alone hown (Bool.eq_false_of_not_eq_true hname)) h

/-! ### The queue -/

/-- The calls in front of the queue are served one after the other, and none of them breaks off. -/
inductive Advances (launch : Launch) : Drain → Drain → Prop where
  | none (d : Drain) : Advances launch d d
  | next {d d₁ d' : Drain} {a : AsyncCall} {r : List AsyncCall} : d.backlog = a :: r →
    runAsync launch a { d with backlog := r } = (.ok (), d₁) → Advances launch d₁ d' → Advances launch d d'

/-- The queue is served to its end, or up to a call that breaks off. -/
theorem Empties.advances {o : Except Stop Unit × Drain} (h : Empties launch d o) :
    (o.1 = .ok () ∧ Advances launch d o.2 ∧ o.2.backlog = []) ∨
      ∃ stop d₁ a r, o.1 = .error stop ∧ Advances launch d d₁ ∧ d₁.backlog = a :: r ∧
        runAsync launch a { d₁ with backlog := r } = (.error stop, o.2) := by
  induction h with
  | @done d hnil => exact .inl ⟨rfl, .none d, hnil⟩
  | @broke d d' a r e hcons hrun => exact .inr ⟨e, d, a, r, rfl, .none d, hcons, hrun⟩
  | next hcons hrun _ ih =>
    obtain ⟨ho, hadvances, hnil⟩ | ⟨stop, d₁, a, r, ho, hadvances, hrest⟩ := ih
    · exact .inl ⟨ho, .next hcons hrun hadvances, hnil⟩
    · exact .inr ⟨stop, d₁, a, r, ho, .next hcons hrun hadvances, hrest⟩

end Drain

namespace Engine

variable {e e' : Engine} {c : Call} {stop : Stop}

/-- A transaction breaks off before anything has changed, since another one is active; or in its own frame,
and the world is as it was before; or after that frame has been committed. Then the deferred calls up to some
point have been served, and the world is the one in which the next of them breaks off, or the one that all of
them have left. -/
theorem execute_error (h : execute c e = (.error stop, e')) :
    (e.active ≠ [] ∧ stop = .fault .engineBusy ∧ e' = e) ∨
    (∃ g, (e.outer c).outcome = .error (.fault g) ∧ stop = .fault g ∧ e'.world = e.world) ∨
    ∃ done d, (e.outer c).outcome = .ok done ∧
      Drain.Advances e.launch ⟨(e.outer c).stage, done.queued, (e.outer c).gas, done.logs, []⟩ d ∧
      ((∃ a r, d.backlog = a :: r ∧ Drain.BreaksOff e.launch a { d with backlog := r } stop e'.world) ∨
        d.backlog = [] ∧ d.result done.data = .error stop ∧ e'.world = d.stage.world) := by
  by_cases hidle : e.active = []
  · have houter : e.launch ⟨c, c.gasLimit, 0, none⟩ true ⟨e.world, e.active, []⟩ = e.outer c := rfl
    have hundoes : e.launch.Undoes := Frame.launch_undoes e.host e.room
    unfold execute at h
    rw [if_neg (by simp [hidle])] at h
    dsimp only at h
    rw [houter] at h
    rcases ho : (e.outer c).outcome with (f | g) | done
    · rw [ho] at h
      cases h
    · rw [ho] at h
      cases h
      exact .inr (.inl ⟨g, rfl, rfl, hundoes _ _ _ _ ho⟩)
    · rw [ho] at h
      obtain ⟨hresult, rfl⟩ := Prod.mk.inj h
      have hempties := (drain_empties hidle ho).1.advances
      refine .inr (.inr ⟨done, ?_⟩)
      obtain ⟨hok, hadvances, hnil⟩ | ⟨stop', d, a, r, hbroke, hadvances, hcons, hrun⟩ := hempties
      · rw [hok] at hresult
        exact ⟨_, rfl, hadvances, .inr ⟨hnil, hresult, rfl⟩⟩
      · rw [hbroke] at hresult
        obtain rfl : stop' = stop := Except.error.inj hresult
        exact ⟨d, rfl, hadvances, .inl ⟨a, r, hcons, Drain.runAsync_error hundoes hrun⟩⟩
  · unfold execute at h
    rw [if_pos (by simp [hidle])] at h
    cases h
    exact .inl ⟨hidle, rfl, rfl⟩

/-! ### A deferred call that raises -/

/-- Writes to its storage, and asks for a call of its own contract later on. -/
def prepareCrash (_ : Entry) : Program Value := do
  Program.request (.storageSet (.text "seen") (.int 1))
  let later : CallRequest := { receiver := .bytes [1], function := .text "crash", gas := .int 2000 }
  Program.request (.callAsync later .nothing (.tuple []))
  return .nothing

def crash (_ : Entry) : Program Value := Program.fault (.raised "ValueError" "boom")

/-- An engine with a contract that does both. -/
def crashingEngine : Engine where
  host := {
    registry := ⟨Table.ofList [("sample", ⟨Table.ofList [
      ("crash", { name := "crash", method := "crash", body := crash }),
      ("go", { name := "go", method := "go", body := prepareCrash })]⟩)]⟩
    settings := {} }
  world := { accounts := Table.ofList [([1], { code := some "sample" })] }

def crashingCall : Call := .unpaid [2] [1] "go" 10000

/-- A transaction that exits without a result may leave another world than it found. -/
theorem execute_error_not_undone :
    ¬ ∀ (e : Engine) (c : Call) stop e', execute c e = (.error stop, e') → e'.world = e.world := by
  intro h
  have hexits : (execute crashingCall crashingEngine).1 = .error (.fault (.raised "ValueError" "boom")) := rfl
  have hstored : (execute crashingCall crashingEngine).2.world.storageGet [1] (Utf8.encode "seen") = [1] := rfl
  have hworld := h crashingEngine crashingCall _ (execute crashingCall crashingEngine).2 (Prod.ext hexits rfl)
  rw [hworld] at hstored
  cases hstored

/-- The write of the transaction's own frame stays when the call that it has queued raises. -/
theorem execute_error_crashing :
    ∃ stop e' done d, execute crashingCall crashingEngine = (.error stop, e') ∧
      (crashingEngine.outer crashingCall).outcome = .ok done ∧
      Drain.Advances crashingEngine.launch ⟨(crashingEngine.outer crashingCall).stage, done.queued,
        (crashingEngine.outer crashingCall).gas, done.logs, []⟩ d ∧
      ((∃ a r, d.backlog = a :: r ∧
          Drain.BreaksOff crashingEngine.launch a { d with backlog := r } stop e'.world) ∨
        d.backlog = [] ∧ d.result done.data = .error stop ∧ e'.world = d.stage.world) ∧
      e'.world.storageGet [1] (Utf8.encode "seen") = [1] := by
  have hexits : (execute crashingCall crashingEngine).1 = .error (.fault (.raised "ValueError" "boom")) := rfl
  have hcommits : (crashingEngine.outer crashingCall).outcome.isOk = true := rfl
  have hstored : (execute crashingCall crashingEngine).2.world.storageGet [1] (Utf8.encode "seen") = [1] := rfl
  have hexecute : execute crashingCall crashingEngine =
    (.error (.fault (.raised "ValueError" "boom")), (execute crashingCall crashingEngine).2) := Prod.ext hexits rfl
  obtain ⟨hbusy, -⟩ | ⟨g, ho, -⟩ | ⟨done, d, ho, hadvances, hbreaks⟩ := execute_error hexecute
  · exact absurd rfl hbusy
  · rw [ho] at hcommits
    cases hcommits
  · exact ⟨_, _, done, d, hexecute, ho, hadvances, hbreaks, hstored⟩

end Engine

end TrialLedger
