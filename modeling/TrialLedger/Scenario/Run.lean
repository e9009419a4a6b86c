import TrialLedger.Scenario.Basic
import TrialLedger.World.Digest

/-! Running a scenario on an engine with an empty world. Steps run in order, up to the
first that stops or does not find what it expects. After each step that does not stop the
digest of the world is kept, and a world that has none ends the run without a verdict. -/

namespace TrialLedger

open Check Fixture

/-- What a run has left behind. -/
structure Progress where
  engine : Engine
  /-- The digest of the world after each step, in order. -/
  hashes : List String := []
  /-- The results of transactions by step index, in order. -/
  results : List (Nat × TransactionResult) := []

namespace Progress

def start (host : Host) : Progress := { engine := { host } }

/-- Puts accounts in place of those that were there. -/
def setAccounts (w : World) (accounts : Table Bytes Account) : World :=
  accounts.entries.foldl (fun w (address, a) => w.setAccount address a) w

/-- The mismatch that a result is reported with. -/
def resultMismatch (kind : TransactionKind) (expectation : Option Expectation) (r : TransactionResult) :
    Except Fault (Option Mismatch) :=
  match expectation with
  | some e => e.mismatch r
  | none => .ok (if kind = .transfer then successMismatch r else none)

def transact (kind : TransactionKind) (c : Call) : Action Engine TransactionResult :=
  match kind with
  | .query => Engine.query c
  | .call | .transfer => Engine.execute c

/-- Runs the step with the given index. -/
def step (index : Nat) (s : Step) : Action Progress (Option Mismatch) := fun p =>
  match s with
  | .setState accounts =>
    (.ok none, { p with engine := { p.engine with world := setAccounts p.engine.world accounts } })
  | .checkState _ accounts => ((accounts.mismatch p.engine.world).mapError .fault, p)
  | .transaction kind _ call expectation =>
    let (r, e) := transact kind call p.engine
    match r with
    | .ok r =>
      let results := p.results ++ [(index, r)]
      ((resultMismatch kind expectation r).mapError .fault, { p with engine := e, results })
    | .error stop => (.error stop, { p with engine := e })

def recordHash (p : Progress) : Except Fault Progress := do
  return { p with hashes := p.hashes ++ [← p.engine.world.digest?] }

end Progress

/-! ### Verdicts -/

inductive Outcome where
  | passed
  | failed (index : Nat) (id : Text) (m : Mismatch)
  | crashed (index : Nat) (stop : Stop)
  | unreadable (e : ReadError)

namespace Outcome

def label : Outcome → String
  | passed => "PASS"
  | failed .. => "FAIL"
  | crashed .. | unreadable _ => "ERROR"

def isPassed : Outcome → Bool
  | passed => true
  | _ => false

/-- What kept the scenario from being judged, if anything did. -/
def errorText : Outcome → Option Text
  | crashed index stop => some ("Step " ++ toString index ++ " failed: " ++ stop.shown : String)
  | unreadable e => some ("Scenario load failed: " ++ e.message)
  | _ => none

end Outcome

structure Verdict where
  scenario : Text
  outcome : Outcome
  /-- How many steps went by as expected. -/
  processed : Nat
  total : Nat
  fingerprint : String

def Verdict.summary (v : Verdict) : Text :=
  match v.outcome with
  | .passed => "PASS: " ++ toString v.processed ++ "/" ++ toString v.total ++ " steps of " ++ v.scenario
  | .failed index id m => "FAIL: " ++ m.describe index id
  | o => "ERROR: " ++ o.errorText.getD ""

/-! ### Runs -/

/-- Runs steps, of which the first has the given index. The answer counts the steps that went by
as expected. -/
def Progress.runFrom (index : Nat) (p : Progress) : List Step → Except Fault (Outcome × Nat × Progress)
  | [] => .ok (.passed, index, p)
  | s :: rest =>
    match Progress.step index s p with
    | (.error stop, p) => .ok (.crashed index stop, index, p)
    | (.ok (some m), p) => do return (.failed index s.id m, index, ← p.recordHash)
    | (.ok none, p) => do runFrom (index + 1) (← p.recordHash) rest

structure Run where
  verdict : Verdict
  progress : Progress

/-- Why a run comes to no verdict. -/
inductive Run.Error where
  | read (e : ReadError)
  /-- The world has no digest after a step. -/
  | digest (f : Fault)

/-- Runs a scenario. One that is misread is judged without running a step. -/
def Scenario.run (s : Scenario) (host : Host) : Except Run.Error Run :=
  let start := Progress.start host
  let fingerprint := host.settings.fingerprint
  match s.steps with
  | .ok steps => do
    let (outcome, processed, progress) ← (start.runFrom 0 steps).mapError .digest
    return ⟨⟨s.name, outcome, processed, steps.length, fingerprint⟩, progress⟩
  | .error e =>
    if e.isMisreading then .ok ⟨⟨s.name, .unreadable e, 0, 0, fingerprint⟩, start⟩ else .error (.read e)

end TrialLedger
