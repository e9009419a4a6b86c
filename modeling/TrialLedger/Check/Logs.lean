import TrialLedger.Check.Assignment
import TrialLedger.Check.Pattern
import TrialLedger.Journal

/-! Patterns for logs. Exact patterns are compared with the logs position by position.
Unordered patterns each claim a log of their own, and logs that none claims may be left. -/

namespace TrialLedger.Check

structure LogPattern where
  address : Pattern Bytes := .unspecified
  endpoint : Pattern Bytes := .unspecified
  topics : ListPattern := .unspecified
  data : Pattern Bytes := .unspecified

namespace LogPattern

/-- The first part of a log that is not as expected. -/
def mismatch (p : LogPattern) (path : String) (l : Log) : Option Mismatch :=
  ((p.address.mismatch (path ++ ".address") l.address .bytes).or
    (p.endpoint.mismatch (path ++ ".endpoint") l.endpoint .bytes)).or
  ((p.data.mismatch (path ++ ".data") l.data .bytes).or
    (p.topics.mismatch (path ++ ".topics") l.topics))

def accepts (p : LogPattern) (l : Log) : Bool := (p.mismatch "" l).isNone

end LogPattern

inductive LogsPattern where
  | unspecified
  | any
  | exact (patterns : List LogPattern)
  | unordered (patterns : List LogPattern)

namespace LogsPattern

def logPath (i : Nat) : String := "logs[" ++ toString i ++ "]"

/-- The first log that is not as expected, in lists of one length. -/
def firstMismatch (i : Nat) : List LogPattern → List Log → Option Mismatch
  | p :: ps, l :: ls => (p.mismatch (logPath i) l).or (firstMismatch (i + 1) ps ls)
  | _, _ => none

/-- The positions of the logs that a pattern accepts. -/
def candidates (p : LogPattern) (logs : List Log) : List Nat :=
  (List.range logs.length).filter fun j => (logs[j]?.map p.accepts).getD false

/-- The first pattern that finds no log of its own beside those before it. -/
def firstUnclaimed (patterns : List LogPattern) (logs : List Log) : Option Nat :=
  let suits := patterns.map fun p => candidates p logs
  Assignment.firstUnserved (fun i => suits.getD i []) logs.length [] (List.range patterns.length)

def unclaimedText (count : Nat) : String := "no unclaimed match among " ++ toString count ++ " logs"

def mismatch (logs : List Log) : LogsPattern → Option Mismatch
  | exact patterns =>
    if patterns.length = logs.length then firstMismatch 0 patterns logs
    else some ⟨"logs.length", .int patterns.length, .int logs.length⟩
  | unordered patterns =>
    (firstUnclaimed patterns logs).map fun i =>
      ⟨logPath i, .text "a matching log", .text (unclaimedText logs.length)⟩
  | _ => none

end LogsPattern

end TrialLedger.Check
