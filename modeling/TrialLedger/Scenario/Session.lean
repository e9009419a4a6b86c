import TrialLedger.Contract
import TrialLedger.Files
import TrialLedger.Json.Printer
import TrialLedger.Scenario.Options
import TrialLedger.Scenario.Run

/-! Sessions: one command line, several scenarios. Each scenario runs on a ledger of its
own, and a session succeeds when all of them pass. A scenario is read when its turn comes, and
its hashes are written before the next one is read. -/

namespace TrialLedger

namespace Session

inductive Error where
  | noEntry (contracts : String)
  | unknownContracts (contracts : String)
  | settings (e : Settings.Negative)
  | run (e : Run.Error)
  /-- The file for the hashes cannot be written. -/
  | unwritten (path : String) (e : Files.Error)

def Error.message : Error → Text
  | noEntry contracts => "expected module:attr, got " ++ Text.quote contracts
  | unknownContracts contracts => "no contracts are known as " ++ Text.quote contracts
  | settings e => e.message
  | run (.read e) => e.message
  | run (.digest f) => f.message
  | unwritten path e => e.message path

/-- What a session tells. -/
structure Report where
  /-- Lines of output. -/
  lines : List Text
  /-- Whether all scenarios passed. -/
  isSuccess : Bool

/-- What surrounds a session: contracts by name, the directory in which it was started, and the
files that it reads and writes. -/
structure Surroundings (m : Type → Type) where
  contracts : List (String × Registry)
  here : String
  files : Files m Source

/-- The registry that a name stands for. A name has two parts with a colon between them. -/
def registryNamed (contracts : List (String × Registry)) (name : String) : Except Error Registry :=
  if (name.toList.dropWhile (· ≠ ':')).length ≤ 1 then .error (.noEntry name)
  else match contracts.lookup name with
    | some r => .ok r
    | none => .error (.unknownContracts name)

/-- The lines about one scenario. -/
def verdictLines (v : Verdict) : List Text :=
  match v.outcome with
  | .failed index id m =>
    [v.summary, "  Step: " ++ toString index ++ " " ++ id, "  Path: " ++ m.path]
  | _ => [v.summary]

def hashLine (index : Nat) (hash : String) : String :=
  "  \"" ++ toString index ++ "\": \"" ++ hash ++ "\""

/-- Hashes as an object with a line for each. -/
def hashText (hashes : List String) : String :=
  if hashes = [] then "\x7b\x7d"
  else "\x7b\n" ++ ",\n".intercalate (hashes.zipIdx.map fun (h, i) => hashLine i h) ++ "\n\x7d"

/-- The host that the options ask for. -/
def hostOf (contracts : List (String × Registry)) (o : Options) : Except Error Host := do
  let registry ← registryNamed contracts (o.contracts.getD "")
  let draft : Settings.Draft := { defaultGasLimit := o.defaultGasLimit }
  return ⟨registry, ← draft.validate.mapError .settings⟩

def contextOf (here : String) (o : Options) (host : Host) (path : String) : Fixture.Context where
  directory := Path.directory here path
  strict := o.strict
  defaultGasLimit := host.settings.defaultGasLimit

def report (runs : List Run) : Report :=
  let passed := (runs.filter fun r => r.verdict.outcome.isPassed).length
  let closing : List Text := ["", toString passed ++ "/" ++ toString runs.length ++ " scenarios passed"]
  { lines := runs.flatMap (fun r => verdictLines r.verdict) ++ closing
    isSuccess := passed = runs.length }

variable {m : Type → Type} [Monad m]

/-- Writes the hashes of a run where the options say; an empty path asks for nothing. -/
def saveHashes (s : Surroundings m) (o : Options) (r : Run) : m (Except Error Unit) :=
  match o.outputHashes.filter fun path => !path.isEmpty with
  | none => return .ok ()
  | some path => do return (← s.files.write path (hashText r.progress.hashes)).mapError (.unwritten path)

def runScenario (s : Surroundings m) (o : Options) (host : Host) (path : String) : m (Except Error Run) := do
  let source ← s.files.read path
  match (Scenario.ofSource (contextOf s.here o host path) path source).run host with
  | .error e => return .error (.run e)
  | .ok r =>
    match ← saveHashes s o r with
    | .error e => return .error e
    | .ok () => return .ok r

def runAll (s : Surroundings m) (o : Options) (host : Host) : List String → m (Except Error (List Run))
  | [] => return .ok []
  | path :: rest => do
    match ← runScenario s o host path with
    | .error e => return .error e
    | .ok r => return (← runAll s o host rest).map (r :: ·)

def run (s : Surroundings m) (o : Options) : m (Except Error Report) :=
  match hostOf s.contracts o with
  | .error e => return .error e
  | .ok host => do return (← runAll s o host o.scenarios).map report

end Session

end TrialLedger
