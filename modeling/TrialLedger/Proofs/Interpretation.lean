import TrialLedger.Proofs.Fixture.Failures
import TrialLedger.Scenario.Run

/-! What comes of a scenario, whatever JSON it is. Either it is read, step by step, and its run comes to a
verdict. Or its reading tells a place where it is wrong, and it is judged by that without a step being run.
There is no verdict in two cases only: something in the scenario fails to be read without its place, or the
world has no digest after one of the steps. -/

namespace TrialLedger

open Fixture

/-! ### Reading -/

namespace Fixture

/-- All holdings that a scenario lists. -/
def ScenarioRecord.holdings (r : ScenarioRecord) : List Json := r.steps.flatMap StepRecord.holdings

/-- What stands for the numbers of eight bytes of a scenario. -/
def ScenarioRecord.numbers (r : ScenarioRecord) : List Json := r.steps.flatMap StepRecord.numbers

variable {ctx : Context} {src : Json} {hs ns : List Json}

theorem readFrom_fails (index : Nat) {records : List StepRecord} (hin : ∀ r ∈ records, r.In src)
    (h : ∀ r ∈ records, r.holdings ⊆ hs ∧ r.plainNumbers ⊆ ns) (hnonces : ∀ j ∈ hs, heldNonces j ⊆ ns) :
    FailsFor (Blames ctx src hs ns) (Step.readFrom ctx index records) := by
  induction records generalizing index with
  | nil => exact .ok _
  | cons r rest ih =>
    obtain ⟨hr, hrest⟩ := List.forall_mem_cons.1 hin
    obtain ⟨hholdings, hplain⟩ := h r List.mem_cons_self
    have hfails := ih (index + 1) hrest fun r hr => h r (List.mem_cons_of_mem _ hr)
    exact .bind (readStep_fails index hr hholdings hplain hnonces) fun _ _ => .bind hfails fun _ _ => .ok _

theorem readScenario_fails {j : Json} {r : ScenarioRecord} (h : ScenarioRecord.ofJson j = .ok r) :
    FailsFor (Blames ctx j r.holdings r.numbers) (Step.readFrom ctx 0 r.steps) := by
  refine readFrom_fails 0 (ScenarioRecord.keeps_ofJson (.here j) h) (fun s hs => ⟨?_, ?_⟩) fun j hj n hn => ?_
  · exact fun j hj => List.mem_flatMap_of_mem hs hj
  · exact fun n hn => List.mem_flatMap_of_mem hs (List.mem_append_left _ hn)
  · obtain ⟨s, hs, hj⟩ := List.mem_flatMap.1 hj
    exact List.mem_flatMap_of_mem hs (List.mem_append_right _ (List.mem_flatMap_of_mem hj hn))

/-- Steps are read one by one, in order. -/
theorem forall₂_of_readFrom {index : Nat} {records : List StepRecord} {steps : List Step}
    (h : Step.readFrom ctx index records = .ok steps) :
    List.Forall₂ (fun s r => Step.read ctx r.2 r.1 = .ok s) steps (records.zipIdx index) := by
  induction records generalizing index steps with
  | nil =>
    obtain rfl := Except.ok.inj h
    exact .nil
  | cons r rest ih =>
    obtain ⟨s, hs, hrest⟩ := bind_eq_ok.1 h
    obtain ⟨ss, hss, hsteps⟩ := bind_eq_ok.1 hrest
    obtain rfl := Except.ok.inj hsteps
    exact .cons hs (ih hss)

end Fixture

/-! ### Running -/

namespace Progress

/-- The steps come to one that does not stop and after which the world has no digest. -/
inductive Undigested : Nat → Progress → List Step → Fault → Prop
  | here {index : Nat} {p p' : Progress} {s : Step} {m : Option Check.Mismatch} {f : Fault} (rest : List Step)
      (hstep : step index s p = (.ok m, p')) (hdigest : p'.engine.world.digest? = .error f) :
      Undigested index p (s :: rest) f
  | later {index : Nat} {p p' q : Progress} {s : Step} {rest : List Step} {f : Fault}
      (hstep : step index s p = (.ok none, p')) (hrecord : p'.recordHash = .ok q)
      (hrest : Undigested (index + 1) q rest f) : Undigested index p (s :: rest) f

theorem recordHash_eq_error {p : Progress} {f : Fault} :
    p.recordHash = .error f ↔ p.engine.world.digest? = .error f := by
  rw [recordHash]
  cases p.engine.world.digest? <;> simp [bind, Except.bind, pure, Except.pure]

/-- A run of steps fails exactly for want of a digest. -/
theorem runFrom_eq_error {index : Nat} {p : Progress} {steps : List Step} {f : Fault} :
    p.runFrom index steps = .error f ↔ Undigested index p steps f := by
  constructor
  · intro h
    induction steps generalizing index p with
    | nil => cases h
    | cons s rest ih =>
      rw [runFrom] at h
      split at h
      · cases h
      · rename_i m p' hstep
        refine .here rest hstep (recordHash_eq_error.1 ?_)
        cases hrecord : p'.recordHash with
        | ok q =>
          rw [hrecord] at h
          cases h
        | error f' =>
          rw [hrecord] at h
          exact congrArg _ (Except.error.inj h)
      · rename_i p' hstep
        cases hrecord : p'.recordHash with
        | ok q =>
          rw [hrecord] at h
          exact .later hstep hrecord (ih h)
        | error f' =>
          rw [hrecord] at h
          obtain rfl := Except.error.inj h
          exact .here rest hstep (recordHash_eq_error.1 hrecord)
  · intro h
    induction h with
    | @here index p p' s m f rest hstep hdigest =>
      rw [runFrom, hstep]
      cases m <;> simp only [recordHash_eq_error.2 hdigest] <;> rfl
    | later hstep hrecord hrest ih =>
      rw [runFrom, hstep]
      simp only [hrecord]
      exact ih

end Progress

namespace Scenario

variable {s : Scenario} {steps : List Step}

/-- A run of steps that were read comes to a verdict about all of them, if there is a digest after each. -/
theorem run_of_steps (h : s.steps = .ok steps) (host : Host) :
    (∃ r, s.run host = .ok r ∧ r.verdict.total = steps.length) ∨
      ∃ f, s.run host = .error (.digest f) ∧ (Progress.start host).Undigested 0 steps f := by
  rw [run, h]
  cases hrun : (Progress.start host).runFrom 0 steps with
  | ok result =>
    simp only [hrun]
    exact .inl ⟨_, rfl, rfl⟩
  | error f =>
    simp only [hrun]
    exact .inr ⟨f, rfl, Progress.runFrom_eq_error.1 hrun⟩

/-- A scenario that tells where it is wrong is judged by that, and no step of it is run. -/
theorem run_of_misread {e : ReadError} (h : s.steps = .error e) (he : e.isMisreading = true) (host : Host) :
    s.run host = .ok ⟨⟨s.name, .unreadable e, 0, 0, host.settings.fingerprint⟩, Progress.start host⟩ := by
  rw [run, h]
  exact if_pos he

theorem run_of_error {e : ReadError} (h : s.steps = .error e) (he : e.isMisreading = false) (host : Host) :
    s.run host = .error (.read e) := by
  rw [run, h]
  exact if_neg (Bool.eq_false_iff.1 he)

/-- A scenario is interpreted, and then each of its steps is read and its run comes to a verdict, but for want of a
digest. Or it tells where it is wrong: then the verdict has none of no steps, and there are neither digests nor
accounts. Or there stands in it what its reading and its run fail of: holdings that are loose, a number that is
overlong, a text that is ragged, or a literal that is oversized. -/
theorem interpretation_cases (ctx : Context) (path : String) (j : Json) (host : Host) :
    let s := ofJson ctx path j
    (∃ r steps, ScenarioRecord.ofJson j = .ok r ∧ s.steps = .ok steps ∧
      List.Forall₂ (fun step r => Step.read ctx r.2 r.1 = .ok step) steps r.steps.zipIdx ∧
      ((∃ run, s.run host = .ok run ∧ run.verdict.total = steps.length) ∨
        ∃ f, s.run host = .error (.digest f) ∧ (Progress.start host).Undigested 0 steps f)) ∨
    (∃ place flaw run, s.steps = .error (.misread place flaw) ∧ s.run host = .ok run ∧
      run.verdict = ⟨s.name, .unreadable (.misread place flaw), 0, 0, host.settings.fingerprint⟩ ∧
      run.progress.hashes = [] ∧ run.progress.results = [] ∧ run.progress.engine = { host, world := {} }) ∨
    (∃ r e, ScenarioRecord.ofJson j = .ok r ∧ s.steps = .error e ∧ s.run host = .error (.read e) ∧
      (e = .notIterable ∧ (∃ h ∈ r.holdings, LooseHoldings h) ∨
        e = .unwritable ∧ ((∃ n ∈ r.numbers, Overlong ctx n) ∨ j.isWritable = false) ∨
        e = .unencodable ∧ (∃ t, j.Part (.text t) ∧ t.plain? = none) ∨
        e = .oversized ∧ ∃ place t, j.Part (.text t) ∧ readBytes ctx place (.text t) = .error .oversized)) := by
  intro s
  cases hj : ScenarioRecord.ofJson j with
  | error issues =>
    have hsteps : s.steps = .error (.misread path (.badRecord ScenarioRecord.model issues)) := by
      simp only [s, ofJson, hj]
      rfl
    exact .inr (.inl ⟨_, _, _, hsteps, run_of_misread hsteps rfl host, rfl, rfl, rfl, rfl⟩)
  | ok r =>
    have hread : s.steps = Step.readFrom ctx 0 r.steps := by
      simp only [s, ofJson, hj]
      rfl
    cases hsteps : s.steps with
    | ok steps =>
      exact .inl ⟨r, steps, rfl, rfl, forall₂_of_readFrom (hread.symm.trans hsteps), run_of_steps hsteps host⟩
    | error e =>
      rcases readScenario_fails hj e (hread.symm.trans hsteps) with ⟨place, flaw, rfl⟩ | hblames
      · exact .inr (.inl ⟨place, flaw, _, rfl, run_of_misread hsteps rfl host, rfl, rfl, rfl, rfl⟩)
      · have hcrash : e.isMisreading = false → _ := fun he => run_of_error hsteps he host
        cases e with
        | notIterable => exact .inr (.inr ⟨r, _, rfl, rfl, hcrash rfl, .inl ⟨rfl, hblames⟩⟩)
        | unwritable => exact .inr (.inr ⟨r, _, rfl, rfl, hcrash rfl, .inr (.inl ⟨rfl, hblames⟩)⟩)
        | unencodable => exact .inr (.inr ⟨r, _, rfl, rfl, hcrash rfl, .inr (.inr (.inl ⟨rfl, hblames⟩))⟩)
        | oversized => exact .inr (.inr ⟨r, _, rfl, rfl, hcrash rfl, .inr (.inr (.inr ⟨rfl, hblames⟩))⟩)
        | misread | unopened | longNumber => exact hblames.elim

end Scenario

/-! ### Null for a list -/

/-- A scenario that sets an account with a token, of which null stands for the instances. -/
def nullInstances : Json := .record [("steps", .list [.record [("step", .text "setState"),
  ("accounts", .record [("address:a", .record [("dct", .record [
    ("str:T", .record [("instances", .null)])])])])]])]

/-- No place is told and there is no verdict. -/
theorem run_nullInstances :
    (Scenario.ofJson {} "case.scen.json" nullInstances).steps = .error .notIterable ∧
      ReadError.notIterable.isMisreading = false ∧
      ∀ host, (Scenario.ofJson {} "case.scen.json" nullInstances).run host = .error (.read .notIterable) := by
  have hsteps : (Scenario.ofJson {} "case.scen.json" nullInstances).steps = .error .notIterable := rfl
  exact ⟨hsteps, rfl, Scenario.run_of_error hsteps rfl⟩

end TrialLedger
