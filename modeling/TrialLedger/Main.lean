import TrialLedger.Contracts.Basic
import TrialLedger.Scenario.Session

/-! The command line: runs scenario files and tells which of them pass. -/

namespace TrialLedger

def usage : String :=
  "usage: trial-ledger --scenario FILE [--scenario FILE ...] --contracts standard:all [--strict]\n" ++
  "                    [--output-hashes FILE] [--default-gas-limit N] [--log-level LEVEL]"

/-- The error that the system reports; one that is not told apart counts as a missing file. -/
def fileError : IO.Error → Files.Error
  | .inappropriateType .. => .isDirectory
  | _ => .notFound

def fileAccess : Files IO Source where
  read path := do
    try
      return .ok (.text (← IO.FS.readFile path))
    catch e =>
      return .error (fileError e)
  write path text := do
    try
      IO.FS.writeFile path text
      return .ok ()
    catch e =>
      return .error (fileError e)

def runSession (o : Options) : IO UInt32 := do
  let here ← IO.currentDir
  match ← Session.run ⟨[("standard:all", Contracts.registry)], here.toString, fileAccess⟩ o with
  | .error e =>
    IO.eprintln e.message.lossy
    return 1
  | .ok report =>
    for line in report.lines do
      match line with
      | .plain s => IO.println s
      | .ragged _ =>
        IO.eprintln (Fixture.ReadError.message .unencodable).lossy
        return 1
    return if report.isSuccess then 0 else 1

end TrialLedger

def main (args : List String) : IO UInt32 := do
  match TrialLedger.Options.ofWords args with
  | .ok o => TrialLedger.runSession o
  | .error .help =>
    IO.println TrialLedger.usage
    return 0
  | .error .misused =>
    IO.eprintln TrialLedger.usage
    return 2
