import TrialLedger.Sha256
import TrialLedger.Text.Utf8

/-! The costs and limits that an engine applies, and a fingerprint of them. -/

namespace TrialLedger

structure Settings where
  frameCost : Nat := 1000
  storageWriteCost : Nat := 50
  logCost : Nat := 10
  maxCallDepth : Nat := 32
  maxAsyncDepth : Nat := 4
  defaultGasLimit : Nat := 5000000
  deriving DecidableEq, Repr

namespace Settings

/-- Settings as they are asked for, where a number may be negative. -/
structure Draft where
  frameCost : Int := 1000
  storageWriteCost : Int := 50
  logCost : Int := 10
  maxCallDepth : Int := 32
  maxAsyncDepth : Int := 4
  defaultGasLimit : Int := 5000000

def Draft.named (d : Draft) : List (String × Int) := [
  ("frame_gas_cost", d.frameCost),
  ("storage_write_gas_cost", d.storageWriteCost),
  ("log_gas_cost", d.logCost),
  ("max_call_depth", d.maxCallDepth),
  ("max_async_depth", d.maxAsyncDepth),
  ("default_gas_limit", d.defaultGasLimit)]

/-- A setting below zero. -/
structure Negative where
  name : String
  value : Int
  deriving DecidableEq, Repr

def Negative.message (e : Negative) : String :=
  e.name ++ " must be non-negative, got " ++ toString e.value

/-- The settings of a draft, or the first of them that is negative. -/
def Draft.validate (d : Draft) : Except Negative Settings :=
  match d.named.find? fun (_, v) => v < 0 with
  | some (name, value) => .error ⟨name, value⟩
  | none => .ok ⟨d.frameCost.toNat, d.storageWriteCost.toNat, d.logCost.toNat, d.maxCallDepth.toNat,
      d.maxAsyncDepth.toNat, d.defaultGasLimit.toNat⟩

/-- Every setting under its name, in the order of the names. -/
def named (s : Settings) : List (String × Nat) := [
  ("default_gas_limit", s.defaultGasLimit),
  ("frame_gas_cost", s.frameCost),
  ("log_gas_cost", s.logCost),
  ("max_async_depth", s.maxAsyncDepth),
  ("max_call_depth", s.maxCallDepth),
  ("storage_write_gas_cost", s.storageWriteCost)]

/-- The first sixteen digits of a digest of all settings. -/
def fingerprint (s : Settings) : String :=
  let line := ":".intercalate (s.named.map fun (name, value) => name ++ "=" ++ toString value)
  String.ofList ((Sha256.digest (Utf8.encode line)).hexChars.take 16)

end Settings

end TrialLedger
